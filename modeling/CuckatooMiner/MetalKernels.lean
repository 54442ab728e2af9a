import Mathlib
import CuckatooMiner.Metal

/-!
# Exact Metal kernels

Every kernel that sorts values reserves slots, so as long as the overflow counter does
not move, an arena holds exactly the values that were sorted, each in its bucket. Marking
such an arena marks the nodes of its values; the other kernels keep, collect or clear the
edges that this tells them to. The graph has more than eighteen edge bits, so buckets of
nodes and lists of edges all span two to the eighteen.
-/

namespace CuckatooMiner.Metal

open PackedBits Reservation LeanRound

/-! ## Arenas -/

/-- The buckets of an arena. -/
def arenaLayout (region : Region) (buckets capacity : Nat) : Layout Address where
  buckets := buckets
  capacity := capacity
  count bucket := .count region bucket
  entry bucket slot := .slot region (bucket * capacity + slot)
  overflow _ := .overflow
  count_injective _ _ _ _ same := (Address.count.inj same).2
  entry_injective b _ s s_small c _ t t_small same :=
    slot_unique capacity b c s t s_small t_small (Address.slot.inj same).2
  count_ne_entry _ _ _ _ _ _ same := by cases same
  count_ne_overflow _ _ _ _ same := by cases same
  entry_ne_overflow _ _ _ _ _ _ same := by cases same

/-- An arena holds exactly some values, each in the bucket of its node. How often a value is in
    its bucket is left open; `Distinct` says that it is there once. -/
def Holds (region : Region) (buckets capacity : Nat) (memory : Device) (held : Nat → Prop)
    (nodeOf : Nat → Nat) : Prop :=
  ∀ bucket < buckets, ∀ value, value ∈ arenaSlots region capacity memory bucket ↔
    held value ∧ nodeOf value / 262144 = bucket

/-- Sort items into the buckets of an arena. -/
def fill (region : Region) (capacity : Nat) (items : List (Nat × Nat)) (memory : Device) : Device :=
  items.foldl (fun memory item => reserveSlot region capacity memory item.1 item.2) memory

/-- Sorting items into an arena whose counts are clear. -/
theorem fill_filled (region : Region) (buckets capacity : Nat) (items : List (Nat × Nat))
    (inside : ∀ item ∈ items, item.1 < buckets) (before : Device)
    (cleared : ∀ bucket < buckets, before.read (.count region bucket) = 0) :
    Filled (arenaLayout region buckets capacity) before (fill region capacity items before) items :=
  @reserve_cleared _ (arenaLayout region buckets capacity) before _ items inside cleared

/-- Sorting never lowers the overflow counter. -/
theorem fill_grows (region : Region) (capacity : Nat) (items : List (Nat × Nat)) (memory : Device) :
    memory.read .overflow ≤ (fill region capacity items memory).read .overflow := by
  induction items generalizing memory with
  | nil => exact Nat.le_refl _
  | cons item rest ih =>
    have not_count : Address.overflow ≠ .count region item.1 := nofun
    have not_slot : ∀ index, Address.overflow ≠ .slot region index := nofun
    refine Nat.le_trans ?_ (ih (reserveSlot region capacity memory item.1 item.2))
    rw [reserveSlot]
    split
    · rw [Memory.read_write_of_ne (not_slot _), Memory.read_write_of_ne not_count]
    · rw [Memory.read_write_self, Memory.read_write_of_ne not_count]
      exact Nat.le_succ _

/-- Sorting never lowers the overflow counter, and if the counter does not move, every
    item is in its bucket. -/
theorem fill_spec (region : Region) (buckets capacity : Nat) (some_buckets : 0 < buckets)
    (items : List (Nat × Nat)) (inside : ∀ item ∈ items, item.1 < buckets) (before : Device)
    (cleared : ∀ bucket < buckets, before.read (.count region bucket) = 0)
    (quiet : (fill region capacity items before).read .overflow = 0) :
    before.read .overflow = 0 ∧
      ∀ bucket < buckets, ∀ value,
        value ∈ arenaSlots region capacity (fill region capacity items before) bucket ↔
          (bucket, value) ∈ items := by
  have filled := fill_filled region buckets capacity items inside before cleared
  have unmoved : ∀ bucket < buckets, before.read .overflow = 0 :=
    fun bucket small => Nat.le_zero.mp ((filled.grows bucket small).trans (Nat.le_of_eq quiet))
  refine ⟨unmoved 0 some_buckets, ?_⟩
  intro bucket small value
  exact filled.mem_stored bucket small (quiet.trans (unmoved bucket small).symm) value

/-- Sorting into a clear arena counts exactly the items beyond the capacities. -/
theorem fill_lost (region : Region) (buckets capacity : Nat) (items : List (Nat × Nat))
    (inside : ∀ item ∈ items, item.1 < buckets) (before : Device)
    (cleared : ∀ bucket < buckets, before.read (.count region bucket) = 0) :
    (fill region capacity items before).read .overflow = before.read .overflow +
      ∑ bucket ∈ Finset.range buckets, ((valuesIn bucket items).length - capacity) :=
  @reserve_cleared_excess _ (arenaLayout region buckets capacity) before _ .overflow (fun _ => rfl)
    items inside cleared

/-- No value is in an arena twice. -/
def Distinct (region : Region) (buckets capacity : Nat) (memory : Device) : Prop :=
  ((List.range buckets).flatMap (arenaSlots region capacity memory)).Nodup

/-- A clear arena into which no value is sorted twice holds none twice, and only values that
    were sorted. -/
theorem fill_distinct (region : Region) (buckets capacity : Nat) (items : List (Nat × Nat))
    (inside : ∀ item ∈ items, item.1 < buckets) (unique : (items.map Prod.snd).Nodup)
    (before : Device) (cleared : ∀ bucket < buckets, before.read (.count region bucket) = 0) :
    Distinct region buckets capacity (fill region capacity items before) ∧
      ∀ bucket < buckets, ∀ value ∈ arenaSlots region capacity (fill region capacity items before)
        bucket, (bucket, value) ∈ items := by
  have filled := fill_filled region buckets capacity items inside before cleared
  exact ⟨filled.distinct unique, fun bucket small value => filled.asked bucket small value⟩

/-- Every sorted item is in the arena or counted. -/
theorem fill_conserves (region : Region) (buckets capacity : Nat) (items : List (Nat × Nat))
    (inside : ∀ item ∈ items, item.1 < buckets) (before : Device) :
    occupancy (arenaLayout region buckets capacity) (fill region capacity items before) +
        (fill region capacity items before).read .overflow =
      occupancy (arenaLayout region buckets capacity) before + before.read .overflow + items.length :=
  @reserve_all_conserves _ (arenaLayout region buckets capacity) before _ .overflow (fun _ => rfl)
    items inside

/-- Sorting into an arena that is clear and has room counts less than all items. -/
theorem fill_overflow_lt (region : Region) (buckets capacity : Nat) (room : 0 < capacity)
    (items : List (Nat × Nat)) (inside : ∀ item ∈ items, item.1 < buckets) (before : Device)
    (cleared : ∀ bucket < buckets, before.read (.count region bucket) = 0) (some_items : items ≠ []) :
    (fill region capacity items before).read .overflow < before.read .overflow + items.length := by
  have conserved := fill_conserves region buckets capacity items inside before
  have empty : occupancy (arenaLayout region buckets capacity) before = 0 := occupancy_cleared cleared
  have occupied : 0 < occupancy (arenaLayout region buckets capacity)
      (fill region capacity items before) :=
    @reserve_cleared_occupied _ (arenaLayout region buckets capacity) before _ room items some_items
      inside cleared
  omega

/-- An arena has as many values as its buckets hold. -/
theorem occupancy_eq (region : Region) (buckets capacity : Nat) (memory : Device) :
    occupancy (arenaLayout region buckets capacity) memory =
      ((List.range buckets).flatMap (arenaSlots region capacity memory)).length := by
  induction buckets with
  | zero => rfl
  | succ bucket ih =>
    rw [List.range_succ, List.flatMap_append, List.length_append, ← ih, List.flatMap_singleton]
    exact Finset.sum_range_succ _ _

/-! ## Live edges -/

variable {p : EndpointParams}

/-- The edges of a part. -/
def InPart (p : EndpointParams) (edge : Nat) : Prop :=
  p.edgeBase ≤ edge ∧ edge < p.edgeBase + p.edgeCount

/-- A part of whole lists of edges. -/
structure Whole (p : EndpointParams) : Prop where
  base : p.edgeBase % 262144 = 0
  count : p.edgeCount % 262144 = 0

/-- The live edges of one word. -/
theorem mem_word_edges (whole : Whole p) (edges : Bitmap) (gid edge : Nat) :
    edge ∈ wordEdges p edges gid ↔
      (p.edgeBase ≤ edge ∧ (edge - p.edgeBase) / 32 = gid) ∧
        edge - p.edgeBase < p.edgeCount ∧ test edges edge = true := by
  have base := whole.base
  have word : (p.edgeBase + gid * 32) >>> 5 = (p.edgeBase + gid * 32) / 32 :=
    Nat.shiftRight_eq_div_pow _ 5
  simp only [wordEdges, List.mem_filter, List.mem_map, drain_width, ones, List.mem_range,
    decide_eq_true_eq, word]
  constructor
  · rintro ⟨⟨place, ⟨small, set_bit⟩, rfl⟩, inside⟩
    refine ⟨⟨by omega, by omega⟩, inside, ?_⟩
    rw [test_eq_getLsbD _ _ (by decide)]
    have same_word : (p.edgeBase + gid * 32 + place) / 32 = (p.edgeBase + gid * 32) / 32 := by omega
    have same_place : (p.edgeBase + gid * 32 + place) % 32 = place := by omega
    rw [same_word, same_place]
    exact set_bit
  · rintro ⟨⟨after, rfl⟩, inside, live⟩
    rw [test_eq_getLsbD _ _ (by decide)] at live
    have same_word : (p.edgeBase + (edge - p.edgeBase) / 32 * 32) / 32 = edge / 32 := by omega
    exact ⟨⟨edge % 32, ⟨Nat.mod_lt _ (by decide), by rwa [same_word]⟩, by omega⟩, inside⟩

/-- The live edges of a part are listed. -/
theorem mem_alive_edges (whole : Whole p) (edges : Bitmap) (edge : Nat) :
    edge ∈ aliveEdges p edges ↔ InPart p edge ∧ test edges edge = true := by
  have count := whole.count
  have words : (p.edgeCount + 31) >>> 5 = (p.edgeCount + 31) / 32 := Nat.shiftRight_eq_div_pow _ 5
  rw [aliveEdges, List.mem_flatMap, InPart]
  simp only [mem_word_edges whole, List.mem_range, words]
  constructor
  · rintro ⟨gid, small, ⟨after, here⟩, inside, live⟩
    exact ⟨⟨after, by omega⟩, live⟩
  · rintro ⟨⟨after, before⟩, live⟩
    exact ⟨_, by omega, ⟨after, rfl⟩, by omega, live⟩

/-- The live edges of a part are listed in ascending order. -/
theorem alive_edges_ascending (whole : Whole p) (edges : Bitmap) :
    (aliveEdges p edges).Pairwise (· < ·) := by
  rw [aliveEdges, List.pairwise_flatMap]
  refine ⟨?_, ?_⟩
  · intro gid _
    rw [wordEdges, drain_width]
    refine List.Pairwise.filter _ ?_
    rw [List.pairwise_map]
    exact (List.pairwise_lt_range.filter _).imp fun below => by omega
  · refine List.pairwise_lt_range.imp ?_
    intro left right below edge edge_member other other_member
    have before := ((mem_word_edges whole edges left edge).mp edge_member).1
    have after := ((mem_word_edges whole edges right other).mp other_member).1
    omega

/-- A part has no more live edges than edges. -/
theorem alive_edges_length (whole : Whole p) (edges : Bitmap) :
    (aliveEdges p edges).length ≤ p.edgeCount := by
  have unique : (aliveEdges p edges).Nodup := (alive_edges_ascending whole edges).imp Nat.ne_of_lt
  have inside : aliveEdges p edges ⊆ List.range' p.edgeBase p.edgeCount := by
    intro edge member
    exact List.mem_range'_1.mpr ((mem_alive_edges whole edges edge).mp member).1
  have fewer := (List.subperm_of_subset unique inside).length_le
  rwa [List.length_range'] at fewer

/-! ## Buckets of nodes -/

section

variable (wide : 18 < p.edgeBits)

include wide

/-- Buckets of nodes span two to the eighteen. -/
theorem bucket_shift : bucketShift p = 18 := if_pos wide

/-- The words of a bucket. -/
theorem words_per_bucket : wordsPerBucket p = 8192 := by
  rw [wordsPerBucket, bucket_shift wide]
  rfl

/-- The place of a node within its bucket. -/
theorem suffix_eq (node : Nat) : suffix p node = node % 262144 := by
  rw [suffix, bucket_shift wide]
  exact Nat.and_two_pow_sub_one_eq_mod node 18

/-- The buckets hold all nodes. -/
theorem buckets_eq : buckets p.edgeBits * 262144 = 2 ^ p.edgeBits := by
  have bits : p.edgeBits - 18 + 18 = p.edgeBits := by omega
  rw [buckets, Nat.one_shiftLeft]
  calc 2 ^ (p.edgeBits - 18) * 262144
      = 2 ^ (p.edgeBits - 18 + 18) := (pow_add 2 (p.edgeBits - 18) 18).symm
    _ = 2 ^ p.edgeBits := by rw [bits]

/-- The bucket of a node. -/
theorem bucket_of_node (node : Nat) (inGraph : node < 2 ^ p.edgeBits) :
    node >>> bucketShift p = node / 262144 ∧ node / 262144 < buckets p.edgeBits := by
  rw [bucket_shift wide, Nat.shiftRight_eq_div_pow]
  refine ⟨rfl, (Nat.div_lt_iff_lt_mul (by decide)).mpr ?_⟩
  rwa [buckets_eq wide]

end

/-- There is a bucket. -/
theorem buckets_positive (edgeBits : Nat) : 0 < buckets edgeBits := by
  rw [buckets, Nat.one_shiftLeft]
  exact Nat.two_pow_pos _

/-- A node and its complement share a bucket. -/
theorem mate_bucket (node : Nat) : (node ^^^ 1) / 262144 = node / 262144 := by
  have pair : (node ^^^ 1) / 2 = node / 2 := by
    have shifted := Nat.shiftRight_xor_distrib (a := node) (b := 1) (i := 1)
    simpa [Nat.shiftRight_eq_div_pow] using shifted
  omega

/-! ## Seeding -/

variable {endpoint : Nat → Nat → Nat}

/-- What a seeding sorts. -/
def seedItems (p : EndpointParams) (endpoint : Nat → Nat → Nat) (stored : Nat → Nat → Nat)
    (edges : List Nat) : List (Nat × Nat) :=
  edges.map fun edge =>
    (endpoint edge p.side >>> bucketShift p, stored edge (endpoint edge p.side))

/-- Seeding sorts the live edges of a part. -/
theorem seed_alive_fill (stored : Nat → Nat → Nat) (schedule : Schedule) (region : Region)
    (edges : Bitmap) (memory : Device) :
    seedAlive p endpoint stored schedule region edges memory =
      fill region p.capacity (seedItems p endpoint stored (schedule.order (aliveEdges p edges)))
        memory := by
  rw [seedAlive, fill, seedItems, List.foldl_map]

/-- Nodes of the graph have a bucket. -/
theorem seed_items_inside (wide : 18 < p.edgeBits)
    (inGraph : ∀ edge, endpoint edge p.side < 2 ^ p.edgeBits) (stored : Nat → Nat → Nat)
    (edges : List Nat) : ∀ item ∈ seedItems p endpoint stored edges, item.1 < buckets p.edgeBits := by
  intro item member
  obtain ⟨edge, _, rfl⟩ := List.mem_map.mp member
  obtain ⟨bucket, small⟩ := bucket_of_node wide _ (inGraph edge)
  rwa [← bucket] at small

/-- Seeding a part keeps earlier overflows, and without overflow a bucket holds what is
    stored for the part's live edges with a node in it. -/
theorem seed_alive_spec (wide : 18 < p.edgeBits) (whole : Whole p)
    (inGraph : ∀ edge, endpoint edge p.side < 2 ^ p.edgeBits) (stored : Nat → Nat → Nat)
    (schedule : Schedule) (region : Region) (edges : Bitmap) (before : Device)
    (cleared : ∀ bucket < buckets p.edgeBits, before.read (.count region bucket) = 0)
    (quiet : (seedAlive p endpoint stored schedule region edges before).read .overflow = 0) :
    before.read .overflow = 0 ∧ ∀ bucket < buckets p.edgeBits, ∀ value,
      value ∈ arenaSlots region p.capacity
        (seedAlive p endpoint stored schedule region edges before) bucket ↔
        ∃ edge, (InPart p edge ∧ test edges edge = true) ∧
          endpoint edge p.side / 262144 = bucket ∧ stored edge (endpoint edge p.side) = value := by
  rw [seed_alive_fill] at quiet ⊢
  obtain ⟨earlier, holds⟩ := fill_spec region (buckets p.edgeBits) p.capacity
    (buckets_positive p.edgeBits) _ (seed_items_inside wide inGraph stored _) before cleared quiet
  refine ⟨earlier, ?_⟩
  intro bucket inside value
  rw [holds bucket inside value, seedItems, List.mem_map]
  simp only [Prod.mk.injEq, (bucket_of_node wide _ (inGraph _)).1, (schedule.perm _).mem_iff,
    mem_alive_edges whole]

/-- Seeding edges without overflow leaves each live edge of a part in its bucket. -/
theorem seed_words_holds (wide : 18 < p.edgeBits) (whole : Whole p)
    (inGraph : ∀ edge, endpoint edge p.side < 2 ^ p.edgeBits) (schedule : Schedule) (region : Region)
    (edges : Bitmap) (before : Device)
    (cleared : ∀ bucket < buckets p.edgeBits, before.read (.count region bucket) = 0)
    (quiet : (bucketSeedAliveWords p endpoint schedule region edges before).read .overflow = 0) :
    before.read .overflow = 0 ∧ Holds region (buckets p.edgeBits) p.capacity
      (bucketSeedAliveWords p endpoint schedule region edges before)
      (fun edge => InPart p edge ∧ test edges edge = true) (fun edge => endpoint edge p.side) := by
  obtain ⟨earlier, members⟩ := seed_alive_spec wide whole inGraph (fun edge _ => edge) schedule region
    edges before cleared quiet
  refine ⟨earlier, ?_⟩
  intro bucket inside edge
  rw [bucketSeedAliveWords, members bucket inside]
  constructor
  · rintro ⟨_, live, here, rfl⟩
    exact ⟨live, here⟩
  · rintro ⟨live, here⟩
    exact ⟨edge, live, here, rfl⟩

/-- Seeding nodes without overflow leaves the node of each live edge of a part in its bucket. -/
theorem seed_nodes_holds (wide : 18 < p.edgeBits) (whole : Whole p)
    (inGraph : ∀ edge, endpoint edge p.side < 2 ^ p.edgeBits) (schedule : Schedule) (region : Region)
    (edges : Bitmap) (before : Device)
    (cleared : ∀ bucket < buckets p.edgeBits, before.read (.count region bucket) = 0)
    (quiet : (bucketSeedAliveNodes p endpoint schedule region edges before).read .overflow = 0) :
    before.read .overflow = 0 ∧ Holds region (buckets p.edgeBits) p.capacity
      (bucketSeedAliveNodes p endpoint schedule region edges before)
      (fun node => ∃ edge, (InPart p edge ∧ test edges edge = true) ∧ endpoint edge p.side = node)
      (fun node => node) := by
  obtain ⟨earlier, members⟩ := seed_alive_spec wide whole inGraph (fun _ node => node) schedule region
    edges before cleared quiet
  refine ⟨earlier, ?_⟩
  intro bucket inside node
  rw [bucketSeedAliveNodes, members bucket inside]
  constructor
  · rintro ⟨edge, live, here, rfl⟩
    exact ⟨⟨edge, live, rfl⟩, here⟩
  · rintro ⟨⟨edge, live, rfl⟩, here⟩
    exact ⟨edge, live, here, rfl⟩

/-! ## Clearing -/

/-- Clearing counts keeps the overflow counter and the other arenas, and clears the counts. -/
theorem clear_counts_spec (region : Region) (count : Nat) (memory : Device) :
    (clearCounts region count memory).read .overflow = memory.read .overflow ∧
      (∀ bucket < count, (clearCounts region count memory).read (.count region bucket) = 0) ∧
      ∀ other, other ≠ region → ∀ capacity bucket,
        arenaSlots other capacity (clearCounts region count memory) bucket =
          arenaSlots other capacity memory bucket := by
  refine ⟨rfl, ?_, ?_⟩
  · intro bucket inside
    exact if_pos ⟨rfl, inside⟩
  · intro other different capacity bucket
    have kept : (clearCounts region count memory).read (.count other bucket) =
        memory.read (.count other bucket) := if_neg fun same => different same.1
    rw [arenaSlots, kept]
    rfl

/-- The counts of all buckets are cleared. -/
theorem clear_bucket_counts_eq (wide : 18 < p.edgeBits) (region : Region) :
    clearBucketCounts p region = clearCounts region (buckets p.edgeBits) := by
  rw [clearBucketCounts, bucket_shift wide, buckets]

/-! ## Marking -/

/-- The places of some values' nodes within their bucket. -/
def nodePlaces (nodeOf : Nat → Nat) (slots : List Nat) : List Nat :=
  slots.map fun value => nodeOf value % 262144

/-- The local bitmap of a bucket has the places of its values' nodes. -/
theorem test_seen_nodes (wide : 18 < p.edgeBits) (nodeOf : Nat → Nat) (slots : List Nat) :
    (seenNodes p nodeOf slots).length = 8192 ∧ ∀ place,
      test (seenNodes p nodeOf slots) place = true ↔ place ∈ nodePlaces nodeOf slots := by
  have as_list : seenNodes p nodeOf slots =
      (nodePlaces nodeOf slots).foldl put (List.replicate 8192 0#32) := by
    rw [nodePlaces, List.foldl_map, seenNodes]
    simp only [suffix_eq wide]
  refine ⟨by rw [as_list, put_all_length, List.length_replicate], ?_⟩
  intro place
  rw [as_list, test_put_all _ _ _ (by decide), test_replicate_zero, Bool.false_or, decide_eq_true_eq]
  intro item member
  obtain ⟨value, _, rfl⟩ := List.mem_map.mp member
  rw [List.length_replicate]
  exact (Nat.div_lt_iff_lt_mul (by decide)).mpr (Nat.mod_lt _ (by decide))

/-- The words of the buckets are those of a bitmap. -/
theorem word_count_eq (wide : 18 < p.edgeBits) :
    wordCount p.edgeBits = buckets p.edgeBits * 8192 := by
  have nodes := buckets_eq wide
  rw [wordCount, Nat.one_shiftLeft, ← nodes]
  omega

/-- Marking adds places to the words of each bucket. -/
theorem mark_bucket_change (wide : 18 < p.edgeBits) (nodeOf : Nat → Nat) (slots : List Nat)
    (old : Bitmap) (size : old.length = wordsPerBucket p) :
    (List.zipWith (· ||| ·) old (seenNodes p nodeOf slots)).length = wordsPerBucket p ∧
      ∀ place, test (List.zipWith (· ||| ·) old (seenNodes p nodeOf slots)) place = true ↔
        test old place = true ∨ place ∈ nodePlaces nodeOf slots := by
  obtain ⟨length, seen⟩ := test_seen_nodes (p := p) wide nodeOf slots
  have words := words_per_bucket wide
  have same := size.trans (words.trans length.symm)
  refine ⟨by rw [List.length_zipWith, ← same, Nat.min_self, size], ?_⟩
  intro place
  rw [test_zip_or _ _ _ (by decide) same, Bool.or_eq_true, seen]

/-- Marking the values of an arena keeps the length of the node bitmap and marks their nodes. -/
theorem mark_buckets_spec (wide : 18 < p.edgeBits) (nodeOf : Nat → Nat) (region : Region)
    (memory : Device) (nodes : Bitmap) (size : nodes.length = wordCount p.edgeBits) :
    (markBuckets p nodeOf region (buckets p.edgeBits) memory nodes).length = wordCount p.edgeBits ∧
      ∀ held, Holds region (buckets p.edgeBits) p.capacity memory held nodeOf →
        (∀ value, held value → nodeOf value < 2 ^ p.edgeBits) → ∀ node,
        test (markBuckets p nodeOf region (buckets p.edgeBits) memory nodes) node = true ↔
          test nodes node = true ∨ ∃ value, held value ∧ nodeOf value = node := by
  have words := words_per_bucket wide
  have count := word_count_eq wide
  have all := buckets_eq wide
  have fits : 0 + buckets p.edgeBits * wordsPerBucket p ≤ nodes.length := by
    rw [size, words, count]
    omega
  constructor
  · refine (getD_over_windows _ nodes ?_ fits).1.trans size
    exact fun bucket old length => (mark_bucket_change wide nodeOf _ old length).1
  · intro held holds inGraph node
    rw [markBuckets, test_marked_windows _ nodes node (by decide) _
      (fun bucket old length => mark_bucket_change wide nodeOf
        (arenaSlots region p.capacity memory bucket) old length) fits, words]
    refine or_congr_right ⟨?_, ?_⟩
    · rintro ⟨⟨_, small⟩, member⟩
      obtain ⟨value, listed, place⟩ := List.mem_map.mp member
      have inside : (node - 0 * 32) / (8192 * 32) < buckets p.edgeBits := by omega
      obtain ⟨in_arena, here⟩ := (holds _ inside value).mp listed
      exact ⟨value, in_arena, by omega⟩
    · rintro ⟨value, in_arena, rfl⟩
      have small := inGraph value in_arena
      have inside : nodeOf value / 262144 < buckets p.edgeBits := by omega
      refine ⟨⟨by omega, by omega⟩, List.mem_map.mpr ⟨value, ?_, by omega⟩⟩
      have bucket : (nodeOf value - 0 * 32) / (8192 * 32) = nodeOf value / 262144 := by omega
      rw [bucket]
      exact (holds _ inside value).mpr ⟨in_arena, rfl⟩

/-! ## Mates -/

/-- The words of a bucket tell whether the complement of an edge's node is marked. -/
theorem mate_seen_window (wide : 18 < p.edgeBits) (nodes : Bitmap) (edge bucket : Nat)
    (here : endpoint edge p.side / 262144 = bucket) :
    mateSeen p endpoint (bucketWindow p nodes bucket) edge =
      test nodes (endpoint edge p.side ^^^ 1) := by
  have mate := mate_bucket (endpoint edge p.side)
  have small := Nat.mod_lt (endpoint edge p.side ^^^ 1) (show 0 < 262144 by decide)
  rw [mateSeen, bucketWindow, suffix_eq wide, words_per_bucket wide,
    test_window _ _ _ _ (by decide) (Nat.lt_of_lt_of_eq small rfl)]
  congr 1
  omega

/-- The local bitmap of a bucket tells whether an edge has a mate in it. -/
theorem mate_seen_slots (wide : 18 < p.edgeBits) (slots : List Nat) (bucket : Nat)
    (listed : ∀ edge ∈ slots, endpoint edge p.side / 262144 = bucket) (edge : Nat)
    (here : endpoint edge p.side / 262144 = bucket) :
    mateSeen p endpoint (seenNodes p (fun edge => endpoint edge p.side) slots) edge = true ↔
      ∃ other ∈ slots, endpoint other p.side = endpoint edge p.side ^^^ 1 := by
  have mate := mate_bucket (endpoint edge p.side)
  rw [mateSeen, suffix_eq wide, (test_seen_nodes wide _ slots).2, nodePlaces, List.mem_map]
  constructor
  · rintro ⟨other, member, place⟩
    have there := listed other member
    exact ⟨other, member, by omega⟩
  · rintro ⟨other, member, same⟩
    exact ⟨other, member, by rw [same]⟩

variable {held : Nat → Prop}

/-- The edges of all buckets that pass the test of their bucket. -/
theorem mem_kept (region : Region) (memory : Device)
    (inGraph : ∀ edge, endpoint edge p.side < 2 ^ p.edgeBits) (wide : 18 < p.edgeBits)
    (holds : Holds region (buckets p.edgeBits) p.capacity memory held
      fun edge => endpoint edge p.side)
    (passes : Nat → Nat → Bool) (keeps : Nat → Prop)
    (tests : ∀ bucket < buckets p.edgeBits, ∀ edge, held edge →
      endpoint edge p.side / 262144 = bucket → (passes bucket edge = true ↔ keeps edge))
    (edge : Nat) :
    edge ∈ (List.range (buckets p.edgeBits)).flatMap (fun bucket =>
        (arenaSlots region p.capacity memory bucket).filter (passes bucket)) ↔
      held edge ∧ keeps edge := by
  simp only [List.mem_flatMap, List.mem_range, List.mem_filter]
  constructor
  · rintro ⟨bucket, inside, member, passed⟩
    obtain ⟨in_arena, here⟩ := (holds bucket inside edge).mp member
    exact ⟨in_arena, (tests bucket inside edge in_arena here).mp passed⟩
  · rintro ⟨in_arena, kept⟩
    have inside := (bucket_of_node wide _ (inGraph edge)).2
    exact ⟨_, inside, (holds _ inside edge).mpr ⟨in_arena, rfl⟩,
      (tests _ inside edge in_arena rfl).mpr kept⟩

/-- Trimming an arena to a bitmap adds the edges whose mate is marked. -/
theorem bucket_trim_to_bitmap_spec (wide : 18 < p.edgeBits)
    (inGraph : ∀ edge, endpoint edge p.side < 2 ^ p.edgeBits) (region : Region) (memory : Device)
    (holds : Holds region (buckets p.edgeBits) p.capacity memory held
      fun edge => endpoint edge p.side)
    (nodes survivors : Bitmap) (fits : ∀ edge, held edge → edge / 32 < survivors.length) (edge : Nat) :
    test (bucketTrimToBitmap p endpoint region (buckets p.edgeBits) memory nodes survivors) edge =
        true ↔
      test survivors edge = true ∨
        held edge ∧ test nodes (endpoint edge p.side ^^^ 1) = true := by
  have kept := mem_kept region memory inGraph wide holds
    (fun bucket => mateSeen p endpoint (bucketWindow p nodes bucket))
    (fun edge => test nodes (endpoint edge p.side ^^^ 1) = true)
    (fun bucket _ edge _ here => by rw [mate_seen_window wide nodes edge bucket here])
  rw [bucketTrimToBitmap, test_put_all _ _ _ (by decide), Bool.or_eq_true, decide_eq_true_eq, kept]
  intro item member
  exact fits item ((kept item).mp member).1

/-! ## Dead edges -/

/-- The items of a dispatch that sorts edges. -/
def keyedItems (key : Nat → Nat) (edges : List Nat) : List (Nat × Nat) :=
  edges.map fun edge => (key edge, edge)

/-- The edges of the arena of seeds without a marked mate, in the order of a schedule. -/
def dyingEdges (p : EndpointParams) (endpoint : Nat → Nat → Nat) (schedule : Schedule)
    (memory : Device) (nodes : Bitmap) : List Nat :=
  schedule.order ((List.range (buckets p.edgeBits)).flatMap fun bucket =>
    (arenaSlots .seed p.capacity memory bucket).filter
      fun edge => !mateSeen p endpoint (bucketWindow p nodes bucket) edge)

/-- They are the edges of the arena whose mate is not marked. -/
theorem mem_dying_edges (wide : 18 < p.edgeBits)
    (inGraph : ∀ edge, endpoint edge p.side < 2 ^ p.edgeBits) (schedule : Schedule)
    (memory : Device)
    (holds : Holds .seed (buckets p.edgeBits) p.capacity memory held
      fun edge => endpoint edge p.side)
    (nodes : Bitmap) (edge : Nat) :
    edge ∈ dyingEdges p endpoint schedule memory nodes ↔
      held edge ∧ test nodes (endpoint edge p.side ^^^ 1) = false := by
  rw [dyingEdges, (schedule.perm _).mem_iff]
  exact mem_kept .seed memory inGraph wide holds
    (fun bucket edge => !mateSeen p endpoint (bucketWindow p nodes bucket) edge)
    (fun edge => test nodes (endpoint edge p.side ^^^ 1) = false)
    (fun bucket _ edge _ here => by rw [mate_seen_window wide nodes edge bucket here, Bool.not_eq_true'])
    edge

/-- Collecting dead edges sorts them. -/
theorem bucket_collect_dead_fill (schedule : Schedule) (memory : Device) (nodes : Bitmap) :
    bucketCollectDead p endpoint schedule (buckets p.edgeBits) memory nodes =
      fill .dead p.destinationCapacity (keyedItems (fun edge => (edge - p.edgeBase) >>> 18)
        (dyingEdges p endpoint schedule memory nodes)) memory := by
  rw [bucketCollectDead, dyingEdges, fill, keyedItems, List.foldl_map]

/-- Collecting dead edges keeps earlier overflows, and without overflow the lists hold the
    edges whose mate is not marked. -/
theorem bucket_collect_dead_spec (wide : 18 < p.edgeBits)
    (inGraph : ∀ edge, endpoint edge p.side < 2 ^ p.edgeBits) (schedule : Schedule)
    (memory : Device) (lists : Nat) (some_lists : 0 < lists) (count : p.edgeCount = lists * 262144)
    (in_part : ∀ edge, held edge → InPart p edge)
    (holds : Holds .seed (buckets p.edgeBits) p.capacity memory held
      fun edge => endpoint edge p.side)
    (nodes : Bitmap) (cleared : ∀ list < lists, memory.read (.count .dead list) = 0)
    (quiet : (bucketCollectDead p endpoint schedule (buckets p.edgeBits) memory nodes).read .overflow =
      0) :
    memory.read .overflow = 0 ∧ Holds .dead lists p.destinationCapacity
      (bucketCollectDead p endpoint schedule (buckets p.edgeBits) memory nodes)
      (fun edge => held edge ∧ test nodes (endpoint edge p.side ^^^ 1) = false)
      (fun edge => edge - p.edgeBase) := by
  have members := mem_dying_edges wide inGraph schedule memory holds nodes
  have shift : ∀ edge, (edge - p.edgeBase) >>> 18 = (edge - p.edgeBase) / 262144 :=
    fun edge => Nat.shiftRight_eq_div_pow _ 18
  rw [bucket_collect_dead_fill] at quiet ⊢
  obtain ⟨earlier, lists_hold⟩ := fill_spec .dead lists p.destinationCapacity some_lists _ (by
    intro item member
    obtain ⟨edge, edge_member, rfl⟩ := List.mem_map.mp member
    obtain ⟨after, before⟩ := in_part edge ((members edge).mp edge_member).1
    show (edge - p.edgeBase) >>> 18 < lists
    rw [shift]
    omega) memory cleared quiet
  refine ⟨earlier, ?_⟩
  intro list inside edge
  rw [lists_hold list inside, keyedItems, mem_keyed, members, shift]

/-- The dead lists of a part lie in the bitmap. -/
theorem dead_lists_inside (edges : Bitmap) (lists : Nat) (base : p.edgeBase % 262144 = 0)
    (inside : p.edgeBase + lists * 262144 ≤ edges.length * 32) :
    (p.edgeBase >>> 5) * 32 = p.edgeBase ∧ (p.edgeBase >>> 5) + lists * 8192 ≤ edges.length := by
  have word : p.edgeBase >>> 5 = p.edgeBase / 32 := Nat.shiftRight_eq_div_pow _ 5
  omega

/-- The places of a list's edges within it. -/
def deadPlaces (p : EndpointParams) (memory : Device) (list : Nat) : List Nat :=
  (arenaSlots .dead p.destinationCapacity memory list).map fun edge => (edge - p.edgeBase) % 262144

/-- Applying dead lists clears the places of their edges. -/
theorem bucket_apply_dead_eq (lists : Nat) (memory : Device) (edges : Bitmap) :
    bucketApplyDead p lists memory edges = overWindows (p.edgeBase >>> 5) 8192 lists
      (fun list alive => (deadPlaces p memory list).foldl clear alive) edges := by
  have mask : ∀ edge, (edge - p.edgeBase) &&& ((1 <<< 18) - 1) = (edge - p.edgeBase) % 262144 :=
    fun edge => Nat.and_two_pow_sub_one_eq_mod _ 18
  simp only [bucketApplyDead, deadPlaces, List.foldl_map, mask]

/-- Applying dead lists, whatever they hold, adds no edge. -/
theorem bucket_apply_dead_subset (lists : Nat) (memory : Device) (edges : Bitmap)
    (base : p.edgeBase % 262144 = 0) (inside : p.edgeBase + lists * 262144 ≤ edges.length * 32)
    (edge : Nat) (kept : test (bucketApplyDead p lists memory edges) edge = true) :
    test edges edge = true := by
  obtain ⟨_, fits⟩ := dead_lists_inside edges lists base inside
  rw [bucket_apply_dead_eq, test_cleared_windows _ edges edge (by decide) _ ?_ fits] at kept
  · exact kept.1
  · intro list _ place member
    obtain ⟨other, _, rfl⟩ := List.mem_map.mp member
    exact Nat.mod_lt _ (by decide)

/-- Applying dead lists keeps the length of the bitmap and clears the edges of the lists. -/
theorem bucket_apply_dead_spec (lists : Nat) (memory : Device) (edges : Bitmap)
    (base : p.edgeBase % 262144 = 0)
    (inside : p.edgeBase + lists * 262144 ≤ edges.length * 32) :
    (bucketApplyDead p lists memory edges).length = edges.length ∧ ∀ doomed : Nat → Prop,
      (∀ edge, doomed edge → p.edgeBase ≤ edge ∧ edge < p.edgeBase + lists * 262144) →
      Holds .dead lists p.destinationCapacity memory doomed (fun edge => edge - p.edgeBase) →
      ∀ edge, test (bucketApplyDead p lists memory edges) edge = true ↔
        test edges edge = true ∧ ¬ doomed edge := by
  obtain ⟨start, fits⟩ := dead_lists_inside edges lists base inside
  rw [bucket_apply_dead_eq]
  constructor
  · refine (getD_over_windows _ edges ?_ fits).1
    intro list part length
    rw [clear_all_length, length]
  · intro doomed in_part holds edge
    rw [test_cleared_windows _ edges edge (by decide) _ ?_ fits]
    · refine and_congr_right fun _ => not_congr ⟨?_, ?_⟩
      · rintro ⟨⟨after, before⟩, member⟩
        obtain ⟨other, listed, place⟩ := List.mem_map.mp member
        rw [Nat.add_mul] at before
        rw [start] at after before place listed
        have list_inside : (edge - p.edgeBase) / (8192 * 32) < lists := by omega
        obtain ⟨dead, same_list⟩ := (holds _ list_inside other).mp listed
        have list : (other - p.edgeBase) / 262144 = (edge - p.edgeBase) / (8192 * 32) := same_list
        obtain ⟨other_after, _⟩ := in_part other dead
        obtain rfl : other = edge := by omega
        exact dead
      · intro dead
        obtain ⟨after, before⟩ := in_part edge dead
        have list_inside : (edge - p.edgeBase) / 262144 < lists := by omega
        rw [start]
        refine ⟨⟨after, by omega⟩, List.mem_map.mpr ⟨edge, ?_, rfl⟩⟩
        exact (holds _ list_inside edge).mpr ⟨dead, rfl⟩
    · intro list _ place member
      obtain ⟨other, _, rfl⟩ := List.mem_map.mp member
      exact Nat.mod_lt _ (by decide)

/-! ## Rounds on arenas -/

/-- The edges of an arena with a mate in it, in the order of a schedule. -/
def matedEdges (p : EndpointParams) (endpoint : Nat → Nat → Nat) (schedule : Schedule)
    (fromArena : Region) (memory : Device) : List Nat :=
  schedule.order ((List.range (buckets p.edgeBits)).flatMap fun bucket =>
    (arenaSlots fromArena p.capacity memory bucket).filter
      (mateSeen p endpoint (seenNodes p (fun edge => endpoint edge p.side)
        (arenaSlots fromArena p.capacity memory bucket))))

/-- What a fused round sorts. -/
def matedItems (p : EndpointParams) (endpoint : Nat → Nat → Nat) (schedule : Schedule)
    (fromArena : Region) (memory : Device) : List (Nat × Nat) :=
  keyedItems (fun edge => endpoint edge ((p.side ^^^ 1) &&& 1) >>> bucketShift p)
    (matedEdges p endpoint schedule fromArena memory)

/-- A fused round sorts the edges with a mate. -/
theorem bucket_trim_fused_fill (schedule : Schedule) (fromArena toArena : Region) (memory : Device) :
    bucketTrimToBucketsFused p endpoint schedule fromArena toArena (buckets p.edgeBits) memory =
      fill toArena p.destinationCapacity (matedItems p endpoint schedule fromArena memory) memory := by
  rw [bucketTrimToBucketsFused, matedItems, matedEdges, fill, keyedItems, List.foldl_map]

/-- It sorts them into buckets. -/
theorem mated_items_inside (wide : 18 < p.edgeBits)
    (inGraph : ∀ edge side, endpoint edge side < 2 ^ p.edgeBits) (schedule : Schedule)
    (fromArena : Region) (memory : Device) :
    ∀ item ∈ matedItems p endpoint schedule fromArena memory, item.1 < buckets p.edgeBits := by
  intro item member
  obtain ⟨edge, _, rfl⟩ := List.mem_map.mp member
  obtain ⟨bucket, small⟩ := bucket_of_node wide _ (inGraph edge ((p.side ^^^ 1) &&& 1))
  rwa [← bucket] at small

/-- It does not sort more edges than the arena has. -/
theorem mated_items_length (schedule : Schedule) (fromArena : Region) (memory : Device) :
    (matedItems p endpoint schedule fromArena memory).length ≤
      occupancy (arenaLayout fromArena (buckets p.edgeBits) p.capacity) memory := by
  rw [matedItems, keyedItems, List.length_map, matedEdges, (schedule.perm _).length_eq, occupancy_eq,
    List.length_flatMap, List.length_flatMap]
  apply List.sum_le_sum
  intro bucket _
  exact List.length_filter_le _ _

/-- They are the edges of the arena that share it with a mate. -/
theorem mem_mated_edges (wide : 18 < p.edgeBits)
    (inGraph : ∀ edge side, endpoint edge side < 2 ^ p.edgeBits) (schedule : Schedule)
    (fromArena : Region) (memory : Device)
    (holds : Holds fromArena (buckets p.edgeBits) p.capacity memory held
      fun edge => endpoint edge p.side)
    (edge : Nat) :
    edge ∈ matedEdges p endpoint schedule fromArena memory ↔
      held edge ∧ ∃ other, held other ∧ endpoint other p.side = endpoint edge p.side ^^^ 1 := by
  rw [matedEdges, (schedule.perm _).mem_iff]
  refine mem_kept fromArena memory (fun edge => inGraph edge p.side) wide holds
    (fun bucket => mateSeen p endpoint (seenNodes p (fun edge => endpoint edge p.side)
      (arenaSlots fromArena p.capacity memory bucket)))
    (fun edge => ∃ other, held other ∧ endpoint other p.side = endpoint edge p.side ^^^ 1) ?_ edge
  intro bucket inside edge _ here
  rw [mate_seen_slots wide _ bucket
    (fun other member => ((holds bucket inside other).mp member).2) edge here]
  constructor
  · rintro ⟨other, member, same⟩
    exact ⟨other, ((holds bucket inside other).mp member).1, same⟩
  · rintro ⟨other, in_arena, same⟩
    refine ⟨other, (holds bucket inside other).mpr ⟨in_arena, ?_⟩, same⟩
    show endpoint other p.side / 262144 = bucket
    rw [same, mate_bucket, here]

/-- No edge is sorted twice, if the arena has none twice. -/
theorem mated_items_distinct (schedule : Schedule) (fromArena : Region) (memory : Device)
    (distinct : Distinct fromArena (buckets p.edgeBits) p.capacity memory) :
    ((matedItems p endpoint schedule fromArena memory).map Prod.snd).Nodup := by
  have sorted : (matedItems p endpoint schedule fromArena memory).map Prod.snd =
      matedEdges p endpoint schedule fromArena memory := by
    rw [matedItems, keyedItems, List.map_map]
    exact List.map_id _
  rw [sorted, matedEdges, (schedule.perm _).nodup_iff]
  exact distinct.sublist (List.Sublist.flatMap_right _ fun bucket _ => List.filter_sublist)

/-- A fused round keeps earlier overflows, and without overflow the other arena holds the
    edges with a mate, in the buckets of their nodes on the other side. -/
theorem bucket_trim_fused_spec (wide : 18 < p.edgeBits)
    (inGraph : ∀ edge side, endpoint edge side < 2 ^ p.edgeBits) (schedule : Schedule)
    (fromArena toArena : Region) (memory : Device)
    (holds : Holds fromArena (buckets p.edgeBits) p.capacity memory held
      fun edge => endpoint edge p.side)
    (cleared : ∀ bucket < buckets p.edgeBits, memory.read (.count toArena bucket) = 0)
    (quiet : (bucketTrimToBucketsFused p endpoint schedule fromArena toArena (buckets p.edgeBits)
      memory).read .overflow = 0) :
    memory.read .overflow = 0 ∧ Holds toArena (buckets p.edgeBits) p.destinationCapacity
      (bucketTrimToBucketsFused p endpoint schedule fromArena toArena (buckets p.edgeBits) memory)
      (fun edge => held edge ∧ ∃ other, held other ∧
        endpoint other p.side = endpoint edge p.side ^^^ 1)
      (fun edge => endpoint edge ((p.side ^^^ 1) &&& 1)) := by
  rw [bucket_trim_fused_fill] at quiet ⊢
  obtain ⟨earlier, arena⟩ := fill_spec toArena (buckets p.edgeBits) p.destinationCapacity
    (buckets_positive _) _ (mated_items_inside wide inGraph schedule fromArena memory) memory cleared
    quiet
  refine ⟨earlier, ?_⟩
  intro bucket inside edge
  rw [arena bucket inside, matedItems, keyedItems, mem_keyed,
    mem_mated_edges wide inGraph schedule fromArena memory holds,
    (bucket_of_node wide _ (inGraph edge _)).1]

end CuckatooMiner.Metal
