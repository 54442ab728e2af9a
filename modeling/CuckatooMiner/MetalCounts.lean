import Mathlib
import CuckatooMiner.MetalRound

/-!
# Counting the edges without a slot

Every edge that a dense round sorts has a slot or is counted. An edge of a part is sorted
once when it is marked and, but for the last part, once more when it is trimmed; only an
edge that has a slot can be dead, and the seeds of the last part that have a slot were not
counted when they were marked. So a dense round counts less than twice the edges of the
graph: in graphs of up to thirty-one edge bits the counter does not wrap.
-/

namespace CuckatooMiner.Metal

open PackedBits Reservation LeanRound

/-- Sorting counts at most its items. -/
theorem fill_overflow_le (region : Region) (capacity : Nat) (items : List (Nat × Nat))
    (memory : Device) :
    (fill region capacity items memory).read .overflow ≤ memory.read .overflow + items.length := by
  induction items generalizing memory with
  | nil => exact Nat.le_refl _
  | cons item rest ih =>
    have not_count : Address.overflow ≠ .count region item.1 := nofun
    have not_slot : ∀ index, Address.overflow ≠ .slot region index := nofun
    have one : (reserveSlot region capacity memory item.1 item.2).read .overflow ≤
        memory.read .overflow + 1 := by
      rw [reserveSlot]
      split
      · rw [Memory.read_write_of_ne (not_slot _), Memory.read_write_of_ne not_count]
        exact Nat.le_succ _
      · rw [Memory.read_write_self, Memory.read_write_of_ne not_count]
    refine (ih (reserveSlot region capacity memory item.1 item.2)).trans ?_
    rw [List.length_cons]
    omega

section

variable {endpoint : Nat → Nat → Nat} {orders : Orders} {edgeBits parts round : Nat}
variable (sizes : Sizes edgeBits parts)
variable (inGraph : ∀ edge side, endpoint edge side < 2 ^ edgeBits)

/-- How many edges the arena of seeds holds. -/
def seedsHeld (edgeBits parts : Nat) (memory : Device) : Nat :=
  occupancy (arenaLayout .seed (buckets edgeBits) (denseCapacity edgeBits parts)) memory

include sizes inGraph

/-- Seeding a part, edges in the arena and new overflows are at most the edges of the part. -/
theorem seed_part_lost (stored : Nat → Nat → Nat) (part : Nat) (inside : part < parts)
    (schedule : Schedule) (edges : Bitmap) (memory : Device) :
    seedsHeld edgeBits parts (seedAlive (denseParams edgeBits parts round part) endpoint stored
        schedule .seed edges (clearBucketCounts (denseParams edgeBits parts round part) .seed memory)) +
      (seedAlive (denseParams edgeBits parts round part) endpoint stored schedule .seed edges
        (clearBucketCounts (denseParams edgeBits parts round part) .seed memory)).read .overflow ≤
      memory.read .overflow + deadBucketCount edgeBits parts * 262144 := by
  obtain ⟨whole, count, _⟩ := dense_params_whole sizes round part inside
  have wide : 18 < (denseParams edgeBits parts round part).edgeBits := sizes.wide
  have length := alive_edges_length whole edges
  rw [count] at length
  rw [seed_alive_fill, clear_bucket_counts_eq wide]
  obtain ⟨kept, cleared, _⟩ := clear_counts_spec .seed (buckets edgeBits) memory
  have conserved := fill_conserves .seed (buckets edgeBits) (denseCapacity edgeBits parts)
    (seedItems (denseParams edgeBits parts round part) endpoint stored (schedule.order
      (aliveEdges (denseParams edgeBits parts round part) edges)))
    (seed_items_inside wide (fun edge => inGraph edge _) stored _)
    (clearCounts .seed (buckets edgeBits) memory)
  have empty : occupancy (arenaLayout .seed (buckets edgeBits) (denseCapacity edgeBits parts))
      (clearCounts .seed (buckets edgeBits) memory) = 0 := occupancy_cleared cleared
  have items : (seedItems (denseParams edgeBits parts round part) endpoint stored (schedule.order
      (aliveEdges (denseParams edgeBits parts round part) edges))).length =
        (aliveEdges (denseParams edgeBits parts round part) edges).length := by
    rw [seedItems, List.length_map, (schedule.perm _).length_eq]
  rw [empty, kept, items] at conserved
  show occupancy _ _ + _ ≤ _
  refine Nat.le_trans (Nat.le_of_eq conserved) ?_
  omega

/-- Marking a part, edges in the arena and new overflows are at most the edges of the part. -/
theorem dense_mark_lost (part : Nat) (inside : part < parts) (state : State) :
    seedsHeld edgeBits parts (denseMark endpoint orders edgeBits parts round state part).memory +
      (denseMark endpoint orders edgeBits parts round state part).memory.read .overflow ≤
      state.memory.read .overflow + deadBucketCount edgeBits parts * 262144 := by
  rw [denseMark]
  split
  · exact seed_part_lost sizes inGraph (fun edge _ => edge) part inside _ state.edges state.memory
  · exact seed_part_lost sizes inGraph (fun _ node => node) part inside _ state.edges state.memory

omit sizes inGraph in
/-- Collecting dead edges counts at most the edges of the arena. -/
theorem collect_dead_lost (part : Nat) (schedule : Schedule) (memory : Device) (nodes : Bitmap) :
    (bucketCollectDead (denseParams edgeBits parts round part) endpoint schedule (buckets edgeBits)
        (clearDeadCounts (denseParams edgeBits parts round part) memory) nodes).read .overflow ≤
      seedsHeld edgeBits parts memory + memory.read .overflow := by
  obtain ⟨kept, _, arenas⟩ := clear_counts_spec .dead
    (max 1 ((denseParams edgeBits parts round part).edgeCount >>> 18)) memory
  have slots : (fun bucket => arenaSlots .seed (denseParams edgeBits parts round part).capacity
        (clearDeadCounts (denseParams edgeBits parts round part) memory) bucket) =
      arenaSlots .seed (denseCapacity edgeBits parts) memory :=
    funext fun bucket => arenas .seed nofun _ bucket
  have length : (dyingEdges (denseParams edgeBits parts round part) endpoint schedule
      (clearDeadCounts (denseParams edgeBits parts round part) memory) nodes).length ≤
        seedsHeld edgeBits parts memory := by
    rw [dyingEdges, (schedule.perm _).length_eq, seedsHeld, occupancy_eq, ← slots,
      List.length_flatMap, List.length_flatMap]
    apply List.sum_le_sum
    intro bucket _
    exact List.length_filter_le _ _
  have counted := fill_overflow_le .dead (denseParams edgeBits parts round part).destinationCapacity
    (keyedItems (fun edge => (edge - (denseParams edgeBits parts round part).edgeBase) >>> 18)
      (dyingEdges (denseParams edgeBits parts round part) endpoint schedule
        (clearDeadCounts (denseParams edgeBits parts round part) memory) nodes))
    (clearDeadCounts (denseParams edgeBits parts round part) memory)
  rw [← bucket_collect_dead_fill, keyedItems, List.length_map, clearDeadCounts, kept] at counted
  refine counted.trans ?_
  rw [Nat.add_comm]
  exact Nat.add_le_add_right length _

/-- Trimming a part counts at most its edges, and the first one, whose seeds are there, at
    most those. -/
theorem dense_trim_lost (offset : Nat) (inside : offset < parts) (state : State) :
    (denseTrim endpoint orders edgeBits parts round state offset).memory.read .overflow ≤
      state.memory.read .overflow + (if offset = 0 then seedsHeld edgeBits parts state.memory
        else deadBucketCount edgeBits parts * 262144) := by
  have collects := fun memory => @collect_dead_lost endpoint edgeBits parts round (parts - 1 - offset)
    (orders.deaths round (parts - 1 - offset)) memory state.nodes
  rw [denseTrim]
  split
  · refine (collects _).trans ?_
    rw [Nat.add_comm]
  · refine (collects _).trans ?_
    exact seed_part_lost sizes inGraph (fun edge _ => edge) (parts - 1 - offset) (by omega) _
      state.edges state.memory

/-- A dense round leaves fewer edges without a slot than twice the edges of the graph. -/
theorem dense_round_lost (state : State) :
    (denseRound endpoint orders edgeBits parts state round).memory.read .overflow < 2 * 2 ^ edgeBits := by
  have two := sizes.two
  have some_lists := sizes.some_lists
  obtain ⟨size, size_eq⟩ : ∃ size, size = deadBucketCount edgeBits parts * 262144 := ⟨_, rfl⟩
  have whole : parts * size = 2 ^ edgeBits := by
    rw [size_eq]
    exact sizes.lists
  obtain ⟨start, start_eq⟩ : ∃ start, start = roundStart edgeBits parts round state := ⟨_, rfl⟩
  have reset : start.memory.read .overflow = 0 := by
    rw [start_eq]
    exact Memory.read_write_self _ _ _
  obtain ⟨marked, marked_eq⟩ : ∃ marked : Nat → State, marked = fun count =>
    (List.range count).foldl (denseMark endpoint orders edgeBits parts round) start := ⟨_, rfl⟩
  have marks : ∀ count ≤ parts, (marked count).memory.read .overflow ≤ count * size ∧
      (0 < count → seedsHeld edgeBits parts (marked count).memory +
        (marked count).memory.read .overflow ≤ count * size) := by
    intro count
    induction count with
    | zero =>
      intro _
      rw [marked_eq]
      exact ⟨Nat.le_of_eq (reset.trans (Nat.zero_mul size).symm), fun none => absurd none (by decide)⟩
    | succ count ih =>
      intro inside
      have before := (ih (Nat.le_of_succ_le inside)).1
      have next : marked (count + 1) =
          denseMark endpoint orders edgeBits parts round (marked count) count := by
        rw [marked_eq]
        simp only [List.range_succ, List.foldl_append, List.foldl_cons, List.foldl_nil]
      have step := @dense_mark_lost endpoint orders edgeBits parts round sizes inGraph count inside
        (marked count)
      rw [← next, ← size_eq] at step
      rw [Nat.succ_mul]
      exact ⟨by omega, fun _ => by omega⟩
  have all_marked := (marks parts (Nat.le_refl _)).2 (by omega)
  obtain ⟨trimmed, trimmed_eq⟩ : ∃ trimmed : Nat → State, trimmed = fun count =>
    (List.range count).foldl (denseTrim endpoint orders edgeBits parts round) (marked parts) := ⟨_, rfl⟩
  have next : ∀ count, trimmed (count + 1) =
      denseTrim endpoint orders edgeBits parts round (trimmed count) count := by
    intro count
    rw [trimmed_eq]
    simp only [List.range_succ, List.foldl_append, List.foldl_cons, List.foldl_nil]
  have trims : ∀ count < parts,
      (trimmed (count + 1)).memory.read .overflow ≤ parts * size + count * size := by
    intro count
    induction count with
    | zero =>
      intro inside
      have step := @dense_trim_lost endpoint orders edgeBits parts round sizes inGraph 0 inside
        (trimmed 0)
      have first : trimmed 0 = marked parts := by
        rw [trimmed_eq]
        rfl
      rw [← next, if_pos rfl, first] at step
      omega
    | succ count ih =>
      intro inside
      have before := ih (Nat.lt_of_succ_lt inside)
      have step := @dense_trim_lost endpoint orders edgeBits parts round sizes inGraph (count + 1)
        inside (trimmed (count + 1))
      rw [← next, if_neg (Nat.succ_ne_zero count), ← size_eq] at step
      rw [Nat.succ_mul]
      omega
  have round_eq : denseRound endpoint orders edgeBits parts state round = trimmed parts := by
    rw [trimmed_eq, marked_eq, start_eq, dense_round_eq]
  obtain ⟨last, parts_eq⟩ : ∃ last, parts = last + 1 := ⟨parts - 1, by omega⟩
  have bound := trims last (by omega)
  have total : parts * size = last * size + size := by rw [parts_eq, Nat.succ_mul]
  rw [← parts_eq] at bound
  rw [round_eq]
  omega

end

end CuckatooMiner.Metal
