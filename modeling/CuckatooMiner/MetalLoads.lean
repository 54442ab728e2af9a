import Mathlib
import CuckatooMiner.MetalCounts
import CuckatooMiner.MetalRun
import CuckatooMiner.Foundation.Segments

/-!
# What the dense rounds on Metal ask for

The load of a bucket is the number of live edges of a part with a node in it, and the load
of a dead list the number of its live edges that die in a round. Loads are facts about the
graph: no order of the threads and nothing that the device computes enters them.

A dense round that starts from exact live edges leaves no edge without a slot if and only if
all its loads are within the capacities. Marking counts exactly the seeds beyond the
capacities of their buckets. Trimming may count them once more, and adds the dead edges
beyond the capacities of their lists. So the counter of a round does not wrap in a graph of
thirty-two edge bits either, unless more than two to the twenty-nine seeds lie beyond the
capacities of their buckets. What a round leaves behind once it has lost an edge depends on
the order of the threads and is not characterized.
-/

namespace CuckatooMiner.Metal

open PackedBits Reservation LeanRound Segments
open GpuLean (Mates liveEdges)

/-! ## Loads -/

section

variable (endpoint : Nat → Nat → Nat) (edgeBits parts side : Nat) (live : Set Nat)

/-- How many live edges of a part have their node in a bucket. -/
noncomputable def partLoad (part bucket : Nat) : Nat :=
  {edge ∈ live | partOf edgeBits parts edge = part ∧ endpoint edge side / 262144 = bucket}.ncard

/-- How many live edges of a dead list have no live mate. -/
noncomputable def deathLoad (list : Nat) : Nat :=
  {edge ∈ live | edge / 262144 = list ∧
    ¬ ∃ mate ∈ live, endpoint mate side = endpoint edge side ^^^ 1}.ncard

/-- How many live edges of a part lie beyond the capacities of their buckets. -/
noncomputable def partExcess (part : Nat) : Nat :=
  ∑ bucket ∈ Finset.range (buckets edgeBits),
    (partLoad endpoint edgeBits parts side live part bucket - denseCapacity edgeBits parts)

/-- How many live edges lie beyond the capacities of their buckets. -/
noncomputable def seedExcess : Nat :=
  ∑ part ∈ Finset.range parts, partExcess endpoint edgeBits parts side live part

/-- No bucket of a part and no dead list is asked for more slots than it has. Nothing is assumed
    of the nodes in a bucket or of the order in which the slots are taken. -/
structure DenseFits : Prop where
  seeds : ∀ part < parts, ∀ bucket < buckets edgeBits,
    partLoad endpoint edgeBits parts side live part bucket ≤ denseCapacity edgeBits parts
  deaths : ∀ part < parts, ∀ list < deadBucketCount edgeBits parts,
    deathLoad endpoint side live (part * deadBucketCount edgeBits parts + list) ≤ deadCapacity parts

end

section

variable {endpoint : Nat → Nat → Nat} {orders : Orders} {edgeBits parts round side : Nat}
variable {edges : Bitmap} {live : Set Nat}

/-- Buckets within their capacities have no excess. -/
theorem part_excess_eq_zero (part : Nat) :
    partExcess endpoint edgeBits parts side live part = 0 ↔ ∀ bucket < buckets edgeBits,
      partLoad endpoint edgeBits parts side live part bucket ≤ denseCapacity edgeBits parts := by
  simp only [partExcess, Finset.sum_eq_zero_iff, Finset.mem_range, Nat.sub_eq_zero_iff_le]

/-- Parts whose buckets are within their capacities have no excess. -/
theorem seed_excess_eq_zero :
    seedExcess endpoint edgeBits parts side live = 0 ↔ ∀ part < parts, ∀ bucket < buckets edgeBits,
      partLoad endpoint edgeBits parts side live part bucket ≤ denseCapacity edgeBits parts := by
  simp only [seedExcess, Finset.sum_eq_zero_iff, Finset.mem_range, part_excess_eq_zero]

/-- Fewer live edges are no more beyond the capacities. -/
theorem part_excess_mono {fewer : Set Nat} (finite : live.Finite) (subset : fewer ⊆ live) (part : Nat) :
    partExcess endpoint edgeBits parts side fewer part ≤
      partExcess endpoint edgeBits parts side live part := by
  apply Finset.sum_le_sum
  intro bucket _
  apply Nat.sub_le_sub_right
  apply Set.ncard_le_ncard _ (finite.subset fun edge member => member.1)
  exact fun edge member => ⟨subset member.1, member.2⟩

/-- A bitmap has finitely many live edges. -/
theorem live_edges_finite (edges : Bitmap) : (liveEdges edges).Finite := by
  apply Set.Finite.subset (List.finite_toSet (members 0 edges))
  intro edge member
  exact (mem_live edges edge).mpr member

variable (sizes : Sizes edgeBits parts)
variable (inGraph : ∀ edge side, endpoint edge side < 2 ^ edgeBits)

/-! ## Seeding -/

/-- The arena of seeds has no edge twice, and only edges of a part. That all edges of the part
    are there is not part of it, since some may have found no slot. -/
structure ArenaOfPart (edgeBits parts part : Nat) (memory : Device) : Prop where
  distinct : Distinct .seed (buckets edgeBits) (denseCapacity edgeBits parts) memory
  inPart : ∀ bucket < buckets edgeBits, ∀ edge ∈ arenaSlots .seed (denseCapacity edgeBits parts)
    memory bucket, partOf edgeBits parts edge = part

/-- The seeds of a part without a marked mate, in the order of a schedule. -/
def dyingOf (endpoint : Nat → Nat → Nat) (edgeBits parts round part : Nat) (schedule : Schedule)
    (memory : Device) (nodes : Bitmap) : List Nat :=
  dyingEdges (denseParams edgeBits parts round part) endpoint schedule
    (clearDeadCounts (denseParams edgeBits parts round part) memory) nodes

/-- Seeding edges sorts each of them. -/
theorem seed_items_edges (p : EndpointParams) (edges : List Nat) :
    (seedItems p endpoint (fun edge _ => edge) edges).map Prod.snd = edges := by
  rw [seedItems, List.map_map]
  exact List.map_id _

include sizes inGraph

/-- A bucket is asked for by as many edges as its load. -/
theorem seed_load (part : Nat) (inside : part < parts) (stored : Nat → Nat → Nat)
    (schedule : Schedule) (edges : Bitmap) (bucket : Nat) :
    (valuesIn bucket (seedItems (denseParams edgeBits parts round part) endpoint stored
      (schedule.order (aliveEdges (denseParams edgeBits parts round part) edges)))).length =
        partLoad endpoint edgeBits parts (round &&& 1) (liveEdges edges) part bucket := by
  obtain ⟨whole, _, _⟩ := dense_params_whole sizes round part inside
  have wide : 18 < (denseParams edgeBits parts round part).edgeBits := sizes.wide
  have asked : (valuesIn bucket (seedItems (denseParams edgeBits parts round part) endpoint stored
      (schedule.order (aliveEdges (denseParams edgeBits parts round part) edges)))).length =
        ((aliveEdges (denseParams edgeBits parts round part) edges).filter fun edge =>
          endpoint edge (round &&& 1) / 262144 = bucket).length := by
    rw [valuesIn, List.length_map, seedItems, List.filter_map, List.length_map,
      ((schedule.perm _).filter _).length_eq]
    congr 2
    funext edge
    simp only [Function.comp_apply, (bucket_of_node wide _ (inGraph edge _)).1]
    rfl
  have unique : ((aliveEdges (denseParams edgeBits parts round part) edges).filter fun edge =>
      endpoint edge (round &&& 1) / 262144 = bucket).Nodup :=
    ((alive_edges_ascending whole edges).imp Nat.ne_of_lt).filter _
  rw [asked, partLoad, ncard_of_listed unique]
  intro edge
  rw [List.mem_filter, mem_alive_edges whole, in_part_iff sizes, decide_eq_true_eq, and_right_comm,
    and_comm (a := partOf edgeBits parts edge = part ∧ _)]
  rfl

/-- Seeding a part counts exactly the live edges beyond the capacities. -/
theorem seed_part_counts (part : Nat) (inside : part < parts) (stored : Nat → Nat → Nat)
    (schedule : Schedule) (edges : Bitmap) (memory : Device) :
    (seedAlive (denseParams edgeBits parts round part) endpoint stored schedule .seed edges
      (clearBucketCounts (denseParams edgeBits parts round part) .seed memory)).read .overflow =
        memory.read .overflow +
          partExcess endpoint edgeBits parts (round &&& 1) (liveEdges edges) part := by
  have wide : 18 < (denseParams edgeBits parts round part).edgeBits := sizes.wide
  obtain ⟨kept, cleared, _⟩ := clear_counts_spec .seed (buckets edgeBits) memory
  have lost := fill_lost .seed (buckets edgeBits) (denseCapacity edgeBits parts)
    (seedItems (denseParams edgeBits parts round part) endpoint stored
      (schedule.order (aliveEdges (denseParams edgeBits parts round part) edges)))
    (seed_items_inside wide (fun edge => inGraph edge _) stored _)
    (clearCounts .seed (buckets edgeBits) memory) cleared
  simp only [seed_load sizes inGraph part inside, kept] at lost
  rw [seed_alive_fill, clear_bucket_counts_eq wide]
  exact lost

/-- A seeded part has no edge in the arena twice, and no edge of another part. -/
theorem seed_part_distinct (part : Nat) (inside : part < parts) (schedule : Schedule)
    (edges : Bitmap) (memory : Device) :
    ArenaOfPart edgeBits parts part (bucketSeedAliveWords (denseParams edgeBits parts round part)
      endpoint schedule .seed edges
      (clearBucketCounts (denseParams edgeBits parts round part) .seed memory)) := by
  obtain ⟨whole, _, _⟩ := dense_params_whole sizes round part inside
  have wide : 18 < (denseParams edgeBits parts round part).edgeBits := sizes.wide
  obtain ⟨_, cleared, _⟩ := clear_counts_spec .seed (buckets edgeBits) memory
  have unique : ((seedItems (denseParams edgeBits parts round part) endpoint (fun edge _ => edge)
      (schedule.order (aliveEdges (denseParams edgeBits parts round part) edges))).map
        Prod.snd).Nodup := by
    rw [seed_items_edges]
    exact (schedule.perm _).nodup_iff.mpr ((alive_edges_ascending whole edges).imp Nat.ne_of_lt)
  obtain ⟨distinct, asked⟩ := fill_distinct .seed (buckets edgeBits) (denseCapacity edgeBits parts) _
    (seed_items_inside wide (fun edge => inGraph edge _) _ _) unique
    (clearCounts .seed (buckets edgeBits) memory) cleared
  rw [bucketSeedAliveWords, seed_alive_fill, clear_bucket_counts_eq wide]
  refine ⟨distinct, fun bucket small edge member => ?_⟩
  obtain ⟨_, listed, rfl⟩ := List.mem_map.mp (List.mem_map_of_mem (f := Prod.snd)
    (asked bucket small edge member))
  obtain ⟨other, alive, rfl⟩ := List.mem_map.mp listed
  rw [(schedule.perm _).mem_iff, mem_alive_edges whole, in_part_iff sizes] at alive
  exact alive.1

/-! ## The mark phase -/

/-- Marking a part counts exactly its live edges beyond the capacities. -/
theorem dense_mark_counts (part : Nat) (inside : part < parts) (state : State) :
    (denseMark endpoint orders edgeBits parts round state part).memory.read .overflow =
      state.memory.read .overflow +
        partExcess endpoint edgeBits parts (round &&& 1) (liveEdges state.edges) part := by
  rw [denseMark]
  split
  · exact seed_part_counts sizes inGraph part inside (fun edge _ => edge) _ state.edges state.memory
  · exact seed_part_counts sizes inGraph part inside (fun _ node => node) _ state.edges state.memory

/-- Marking all parts counts exactly the live edges beyond the capacities, leaves edges of the
    last part in the arena and does not touch the bitmap of edges. -/
theorem dense_marks_counts (state : State) :
    ((List.range parts).foldl (denseMark endpoint orders edgeBits parts round)
        (roundStart edgeBits parts round state)).edges = state.edges ∧
    ((List.range parts).foldl (denseMark endpoint orders edgeBits parts round)
        (roundStart edgeBits parts round state)).memory.read .overflow =
      seedExcess endpoint edgeBits parts (round &&& 1) (liveEdges state.edges) ∧
    ArenaOfPart edgeBits parts (parts - 1)
      ((List.range parts).foldl (denseMark endpoint orders edgeBits parts round)
        (roundStart edgeBits parts round state)).memory := by
  have two := sizes.two
  have kept : ∀ count, ((List.range count).foldl (denseMark endpoint orders edgeBits parts round)
      (roundStart edgeBits parts round state)).edges = state.edges := by
    intro count
    induction count with
    | zero => rfl
    | succ count ih =>
      rw [List.range_succ, List.foldl_append, List.foldl_cons, List.foldl_nil, denseMark]
      split <;> exact ih
  have counts : ∀ count ≤ parts, ((List.range count).foldl
      (denseMark endpoint orders edgeBits parts round)
        (roundStart edgeBits parts round state)).memory.read .overflow =
          ∑ part ∈ Finset.range count,
            partExcess endpoint edgeBits parts (round &&& 1) (liveEdges state.edges) part := by
    intro count
    induction count with
    | zero =>
      intro _
      exact Memory.read_write_self _ _ _
    | succ count ih =>
      intro inside
      rw [List.range_succ, List.foldl_append, List.foldl_cons, List.foldl_nil,
        dense_mark_counts sizes inGraph count inside, kept, ih (Nat.le_of_succ_le inside),
        Finset.sum_range_succ]
  refine ⟨kept parts, counts parts (Nat.le_refl _), ?_⟩
  obtain ⟨last, last_part⟩ : ∃ last, parts = last + 1 := ⟨parts - 1, by omega⟩
  have resident : parts - 1 = last := by omega
  rw [resident, show List.range parts = List.range last ++ [last] by rw [last_part, List.range_succ],
    List.foldl_append, List.foldl_cons, List.foldl_nil, denseMark, if_pos last_part.symm]
  exact seed_part_distinct sizes inGraph last (by omega) _ _ _

/-! ## The trim phase -/

omit sizes inGraph in
/-- A list of edges has at most two to the eighteen of them. -/
theorem list_length_le {edges : List Nat} (unique : edges.Nodup) (list : Nat) :
    (edges.filter fun edge => edge / 262144 = list).length ≤ 262144 := by
  have within : (edges.filter fun edge => edge / 262144 = list) ⊆ List.range' (list * 262144) 262144 := by
    intro edge member
    have here : edge / 262144 = list := of_decide_eq_true (List.mem_filter.mp member).2
    rw [List.mem_range'_1]
    omega
  have fewer := (List.subperm_of_subset (unique.filter _) within).length_le
  rwa [List.length_range'] at fewer

omit inGraph in
/-- The dying edges of a part are edges of the part, each listed once. -/
theorem dying_edges_of_part (part : Nat) (schedule : Schedule) (memory : Device)
    (nodes : Bitmap) (arena : ArenaOfPart edgeBits parts part memory) :
    (dyingOf endpoint edgeBits parts round part schedule memory nodes).Nodup ∧
      ∀ edge ∈ dyingOf endpoint edgeBits parts round part schedule memory nodes,
        partOf edgeBits parts edge = part := by
  obtain ⟨_, _, arenas⟩ := clear_counts_spec .dead (deadBucketCount edgeBits parts) memory
  have slots : ∀ bucket, arenaSlots .seed (denseParams edgeBits parts round part).capacity
      (clearCounts .dead (deadBucketCount edgeBits parts) memory) bucket =
        arenaSlots .seed (denseCapacity edgeBits parts) memory bucket :=
    fun bucket => arenas .seed nofun _ bucket
  constructor
  · rw [dyingOf, clear_dead_counts_eq sizes, dyingEdges, (schedule.perm _).nodup_iff]
    simp only [slots]
    exact arena.distinct.sublist (List.Sublist.flatMap_right _ fun bucket _ => List.filter_sublist)
  · intro edge member
    rw [dyingOf, clear_dead_counts_eq sizes, dyingEdges, (schedule.perm _).mem_iff,
      List.mem_flatMap] at member
    obtain ⟨bucket, small, listed⟩ := member
    rw [slots] at listed
    exact arena.inPart bucket (List.mem_range.mp small) edge (List.mem_of_mem_filter listed)

omit inGraph in
/-- The dead list that a kernel finds for an edge of its part is numbered from the first of the
    part. -/
theorem dead_list_of_part (part edge : Nat)
    (in_part : partOf edgeBits parts edge = part) (list : Nat) :
    (edge - (denseParams edgeBits parts round part).edgeBase) >>> 18 = list ↔
      edge / 262144 = part * deadBucketCount edgeBits parts + list := by
  have base : (denseParams edgeBits parts round part).edgeBase =
      part * (deadBucketCount edgeBits parts * 262144) := by
    rw [← part_edges_fit sizes]
    rfl
  obtain ⟨start, _⟩ := (in_part_iff sizes round part edge).mpr in_part
  rw [Nat.shiftRight_eq_div_pow]
  rw [base, ← Nat.mul_assoc] at start ⊢
  omega

omit inGraph in
/-- Collecting dead edges of a part counts exactly those beyond the capacities of their lists. -/
theorem collect_dead_counts (part : Nat) (inside : part < parts) (schedule : Schedule)
    (memory : Device) (nodes : Bitmap) (arena : ArenaOfPart edgeBits parts part memory) :
    (bucketCollectDead (denseParams edgeBits parts round part) endpoint schedule (buckets edgeBits)
        (clearDeadCounts (denseParams edgeBits parts round part) memory) nodes).read .overflow =
      memory.read .overflow + ∑ list ∈ Finset.range (deadBucketCount edgeBits parts),
        (((dyingOf endpoint edgeBits parts round part schedule memory nodes).filter fun edge =>
          edge / 262144 = part * deadBucketCount edgeBits parts + list).length -
            deadCapacity parts) := by
  obtain ⟨_, count, _⟩ := dense_params_whole sizes round part inside
  obtain ⟨kept, cleared, _⟩ := clear_counts_spec .dead (deadBucketCount edgeBits parts) memory
  obtain ⟨_, members⟩ := @dying_edges_of_part endpoint edgeBits parts round sizes part schedule
    memory nodes arena
  have lists_inside : ∀ item ∈ keyedItems
      (fun edge => (edge - (denseParams edgeBits parts round part).edgeBase) >>> 18)
      (dyingOf endpoint edgeBits parts round part schedule memory nodes),
      item.1 < deadBucketCount edgeBits parts := by
    intro item member
    obtain ⟨edge, listed, rfl⟩ := List.mem_map.mp member
    obtain ⟨_, before⟩ := (in_part_iff sizes round part edge).mpr (members edge listed)
    show (edge - (denseParams edgeBits parts round part).edgeBase) >>> 18 < _
    rw [Nat.shiftRight_eq_div_pow]
    omega
  have lost := fill_lost .dead (deadBucketCount edgeBits parts)
    (denseParams edgeBits parts round part).destinationCapacity _ lists_inside
    (clearCounts .dead (deadBucketCount edgeBits parts) memory) cleared
  have filled := @bucket_collect_dead_fill (denseParams edgeBits parts round part) endpoint schedule
    (clearDeadCounts (denseParams edgeBits parts round part) memory) nodes
  rw [clear_dead_counts_eq sizes] at filled ⊢
  rw [dyingOf, clear_dead_counts_eq sizes] at lost
  refine (congrArg (·.read .overflow) filled).trans (lost.trans ?_)
  rw [kept]
  congr 1
  apply Finset.sum_congr rfl
  intro list _
  congr 1
  rw [valuesIn, List.length_map, keyedItems, List.filter_map, List.length_map]
  congr 1
  apply List.filter_congr
  intro edge member
  exact decide_eq_decide.mpr (dead_list_of_part sizes part edge (members edge member) list)

/-- The seeds to be trimmed are edges of the part, and only those of a later part are counted. -/
theorem trim_seeds_counts (offset : Nat) (inside : offset < parts) (state : State)
    (resident : offset = 0 → ArenaOfPart edgeBits parts (parts - 1) state.memory) :
    ArenaOfPart edgeBits parts (parts - 1 - offset)
        (trimSeeds endpoint orders edgeBits parts round state offset) ∧
      state.memory.read .overflow ≤
        (trimSeeds endpoint orders edgeBits parts round state offset).read .overflow ∧
      (trimSeeds endpoint orders edgeBits parts round state offset).read .overflow ≤
        state.memory.read .overflow + partExcess endpoint edgeBits parts (round &&& 1)
          (liveEdges state.edges) (parts - 1 - offset) := by
  rw [trimSeeds]
  split
  · rename_i first
    subst first
    exact ⟨resident rfl, Nat.le_refl _, Nat.le_add_right _ _⟩
  · have counts := @seed_part_counts endpoint edgeBits parts round sizes inGraph (parts - 1 - offset)
      (by omega) (fun edge _ => edge) (orders.trimSeed round (parts - 1 - offset)) state.edges
      state.memory
    refine ⟨seed_part_distinct sizes inGraph _ (by omega) _ _ _, ?_, Nat.le_of_eq counts⟩
    exact (Nat.le_add_right _ _).trans (Nat.le_of_eq counts.symm)

omit sizes inGraph in
/-- Consecutive lists have no more edges beyond a capacity than if each of them had all of its
    own. -/
theorem lists_excess_le {edges : List Nat} (unique : edges.Nodup) (first lists capacity : Nat) :
    ∑ list ∈ Finset.range lists,
        ((edges.filter fun edge => edge / 262144 = first + list).length - capacity) ≤
      lists * (262144 - capacity) := by
  have each := Finset.sum_le_card_nsmul (Finset.range lists)
    (fun list => (edges.filter fun edge => edge / 262144 = first + list).length - capacity)
    (262144 - capacity) fun list _ => Nat.sub_le_sub_right (list_length_le unique _) _
  rwa [Finset.card_range, smul_eq_mul] at each

/-- A part asks a dead list for at most all its edges. -/
theorem dense_trim_bound (finite : live.Finite) (offset : Nat) (inside : offset < parts)
    (state : State) (size : state.edges.length = wordCount edgeBits)
    (subset : liveEdges state.edges ⊆ live)
    (resident : offset = 0 → ArenaOfPart edgeBits parts (parts - 1) state.memory) :
    (denseTrim endpoint orders edgeBits parts round state offset).edges.length =
        wordCount edgeBits ∧
      liveEdges (denseTrim endpoint orders edgeBits parts round state offset).edges ⊆ live ∧
      (denseTrim endpoint orders edgeBits parts round state offset).memory.read .overflow ≤
        state.memory.read .overflow +
          partExcess endpoint edgeBits parts (round &&& 1) live (parts - 1 - offset) +
          deadBucketCount edgeBits parts * (262144 - deadCapacity parts) := by
  have part_inside : parts - 1 - offset < parts := by omega
  obtain ⟨whole, _, fits⟩ := dense_params_whole sizes round (parts - 1 - offset) part_inside
  have bits := word_count_bits (Nat.le_of_lt sizes.wide)
  obtain ⟨arena, _, seeds⟩ := @trim_seeds_counts endpoint orders edgeBits parts round sizes inGraph offset
    inside state resident
  have excess := @part_excess_mono endpoint edgeBits parts (round &&& 1) live _ finite subset
    (parts - 1 - offset)
  obtain ⟨unique, _⟩ := @dying_edges_of_part endpoint edgeBits parts round sizes
    (parts - 1 - offset) (orders.deaths round (parts - 1 - offset)) _ state.nodes arena
  have counts := @collect_dead_counts endpoint edgeBits parts round sizes
    (parts - 1 - offset) part_inside (orders.deaths round (parts - 1 - offset)) _ state.nodes arena
  rw [dense_trim_eq]
  refine ⟨?_, ?_, ?_⟩
  · exact ((bucket_apply_dead_spec _ _ state.edges whole.base
      (by rw [size, bits]; exact fits)).1).trans size
  · intro edge member
    exact subset (bucket_apply_dead_subset _ _ state.edges whole.base
      (by rw [size, bits]; exact fits) edge member)
  · have lists := lists_excess_le unique ((parts - 1 - offset) * deadBucketCount edgeBits parts)
      (deadBucketCount edgeBits parts) (deadCapacity parts)
    refine (Nat.le_of_eq counts).trans ?_
    omega

/-- The dying edges of a dead list are its live edges without a live mate. -/
theorem dying_load (offset : Nat) (inside : offset < parts) (schedule : Schedule) (state : State)
    (trimmed : Trimmed endpoint edgeBits parts round edges offset state) (silent : Silent state.memory)
    (memory : Device)
    (seeded : Seeded endpoint edgeBits parts round state.edges (parts - 1 - offset) memory)
    (arena : ArenaOfPart edgeBits parts (parts - 1 - offset) memory)
    (list : Nat) (small : list < deadBucketCount edgeBits parts) :
    ((dyingOf endpoint edgeBits parts round (parts - 1 - offset) schedule memory
        state.nodes).filter fun edge =>
          edge / 262144 = (parts - 1 - offset) * deadBucketCount edgeBits parts + list).length =
      deathLoad endpoint (round &&& 1) (liveEdges edges)
        ((parts - 1 - offset) * deadBucketCount edgeBits parts + list) := by
  have part_inside : parts - 1 - offset < parts := by omega
  have wide : 18 < (denseParams edgeBits parts round (parts - 1 - offset)).edgeBits := sizes.wide
  obtain ⟨unique, in_part⟩ := @dying_edges_of_part endpoint edgeBits parts round sizes
    (parts - 1 - offset) schedule memory state.nodes arena
  have holds : Holds .seed (buckets edgeBits) (denseCapacity edgeBits parts)
      (clearDeadCounts (denseParams edgeBits parts round (parts - 1 - offset)) memory)
      (fun edge => partOf edgeBits parts edge = parts - 1 - offset ∧ test state.edges edge = true)
      (fun edge => endpoint edge (round &&& 1)) := by
    intro bucket below edge
    rw [clearDeadCounts, (clear_counts_spec .dead _ memory).2.2 .seed (by decide)]
    exact seeded bucket below edge
  have dying := mem_dying_edges wide (fun edge => inGraph edge _) schedule _ holds state.nodes
  symm
  apply ncard_of_listed (unique.filter _)
  intro edge
  rw [List.mem_filter, decide_eq_true_eq]
  have unmarked : test state.nodes (endpoint edge (round &&& 1) ^^^ 1) = false ↔
      ¬ ∃ mate ∈ liveEdges edges, endpoint mate (round &&& 1) = endpoint edge (round &&& 1) ^^^ 1 := by
    rw [← Bool.not_eq_true, trimmed.nodes silent]
    rfl
  constructor
  · rintro ⟨member, here⟩
    obtain ⟨⟨part, live⟩, lonely⟩ := (dying edge).mp member
    exact ⟨((trimmed.live silent edge).mp live).1, here, unmarked.mp lonely⟩
  · rintro ⟨live, here, lonely⟩
    have part : partOf edgeBits parts edge = parts - 1 - offset := by
      rw [partOf, Nat.mul_comm, ← Nat.div_div_eq_div_mul, here, Nat.mul_comm,
        Nat.mul_add_div sizes.some_lists, Nat.div_eq_of_lt small, Nat.add_zero]
    have untouched : test state.edges edge = true :=
      (trimmed.live silent edge).mpr ⟨live, fun done => by omega⟩
    exact ⟨(dying edge).mpr ⟨⟨part, untouched⟩, unmarked.mpr lonely⟩, here⟩

/-- Trimming a part never lowers the counter. -/
theorem dense_trim_grows (offset : Nat) (inside : offset < parts) (state : State)
    (resident : offset = 0 → ArenaOfPart edgeBits parts (parts - 1) state.memory) :
    state.memory.read .overflow ≤
      (denseTrim endpoint orders edgeBits parts round state offset).memory.read .overflow := by
  obtain ⟨arena, grown, _⟩ := @trim_seeds_counts endpoint orders edgeBits parts round sizes inGraph
    offset inside state resident
  have counts := @collect_dead_counts endpoint edgeBits parts round sizes
    (parts - 1 - offset) (by omega) (orders.deaths round (parts - 1 - offset)) _ state.nodes arena
  rw [dense_trim_eq]
  exact grown.trans ((Nat.le_add_right _ _).trans (Nat.le_of_eq counts.symm))

/-- Where the seeds of a part have slots, trimming it leaves the counter at zero if and only if it
    was zero and the dead lists of the part have slots. -/
theorem dense_trim_silent_iff (offset : Nat) (inside : offset < parts) (state : State)
    (trimmed : Trimmed endpoint edgeBits parts round edges offset state)
    (resident : offset = 0 → ArenaOfPart edgeBits parts (parts - 1) state.memory)
    (seeds : partExcess endpoint edgeBits parts (round &&& 1) (liveEdges edges) (parts - 1 - offset) =
      0) :
    Silent (denseTrim endpoint orders edgeBits parts round state offset).memory ↔
      Silent state.memory ∧ ∀ list < deadBucketCount edgeBits parts,
        deathLoad endpoint (round &&& 1) (liveEdges edges)
          ((parts - 1 - offset) * deadBucketCount edgeBits parts + list) ≤ deadCapacity parts := by
  have part_inside : parts - 1 - offset < parts := by omega
  obtain ⟨arena, grown, counted⟩ := @trim_seeds_counts endpoint orders edgeBits parts round sizes
    inGraph offset inside state resident
  have counts := @collect_dead_counts endpoint edgeBits parts round sizes
    (parts - 1 - offset) part_inside (orders.deaths round (parts - 1 - offset)) _ state.nodes arena
  rw [dense_trim_eq]
  show _ = 0 ↔ _
  refine (Eq.congr_left counts).trans ?_
  rw [Nat.add_eq_zero_iff, Finset.sum_eq_zero_iff]
  simp only [Finset.mem_range, Nat.sub_eq_zero_iff_le]
  have quiet : (trimSeeds endpoint orders edgeBits parts round state offset).read .overflow = 0 ↔
      Silent state.memory := by
    refine ⟨fun none => Nat.le_zero.mp (grown.trans (Nat.le_of_eq none)), fun silent => ?_⟩
    have subset : liveEdges state.edges ⊆ liveEdges edges :=
      fun edge member => ((trimmed.live silent edge).mp member).1
    have excess := @part_excess_mono endpoint edgeBits parts (round &&& 1) _ _
      (live_edges_finite edges) subset (parts - 1 - offset)
    rw [Silent] at silent
    omega
  rw [quiet]
  refine and_congr_right fun silent => forall₂_congr fun list small => ?_
  obtain ⟨_, seeded⟩ := trim_seeds_seeded sizes inGraph offset inside state trimmed
    (quiet.mpr silent)
  rw [dying_load sizes inGraph offset inside (orders.deaths round (parts - 1 - offset)) state trimmed
    silent _ seeded arena list small]

/-! ## Dense rounds -/

omit sizes inGraph in
/-- One part more is trimmed after the others. -/
theorem dense_trims_succ (start : State) (count : Nat) :
    (List.range (count + 1)).foldl (denseTrim endpoint orders edgeBits parts round) start =
      denseTrim endpoint orders edgeBits parts round
        ((List.range count).foldl (denseTrim endpoint orders edgeBits parts round) start) count := by
  rw [List.range_succ, List.foldl_append, List.foldl_cons, List.foldl_nil]

omit sizes inGraph in
/-- Before the first part is trimmed, the arena is that of the marks. -/
theorem dense_trims_resident {start : State}
    (arena : ArenaOfPart edgeBits parts (parts - 1) start.memory) (count : Nat) (none : count = 0) :
    ArenaOfPart edgeBits parts (parts - 1)
      ((List.range count).foldl (denseTrim endpoint orders edgeBits parts round) start).memory := by
  subst none
  exact arena

/-- Trimming some of the last parts never lowers the counter. -/
theorem dense_trims_grow (start : State)
    (arena : ArenaOfPart edgeBits parts (parts - 1) start.memory) (count : Nat)
    (inside : count ≤ parts) :
    start.memory.read .overflow ≤ ((List.range count).foldl
      (denseTrim endpoint orders edgeBits parts round) start).memory.read .overflow := by
  induction count with
  | zero => exact Nat.le_refl _
  | succ count ih =>
    rw [dense_trims_succ]
    exact (ih (Nat.le_of_succ_le inside)).trans
      (dense_trim_grows sizes inGraph count inside _ (dense_trims_resident arena count))

/-- Where all seeds have slots, trimming some of the last parts leaves the counter at zero if and
    only if the dead lists of these parts have slots. -/
theorem dense_trims_silent_iff (size : edges.length = wordCount edgeBits) (start : State)
    (marked : Marked endpoint edgeBits parts round edges parts start)
    (arena : ArenaOfPart edgeBits parts (parts - 1) start.memory) (silent : Silent start.memory)
    (none : seedExcess endpoint edgeBits parts (round &&& 1) (liveEdges edges) = 0) (count : Nat)
    (inside : count ≤ parts) :
    Silent ((List.range count).foldl
        (denseTrim endpoint orders edgeBits parts round) start).memory ↔
      ∀ offset < count, ∀ list < deadBucketCount edgeBits parts,
        deathLoad endpoint (round &&& 1) (liveEdges edges)
          ((parts - 1 - offset) * deadBucketCount edgeBits parts + list) ≤ deadCapacity parts := by
  induction count with
  | zero => exact iff_of_true silent fun _ before => absurd before (Nat.not_lt_zero _)
  | succ count ih =>
    have trimmed := @dense_trims_trimmed endpoint orders edgeBits parts round edges sizes inGraph size
      start marked count (Nat.le_of_succ_le inside)
    have seeds := Finset.sum_eq_zero_iff.mp none (parts - 1 - count) (Finset.mem_range.mpr (by omega))
    rw [dense_trims_succ, dense_trim_silent_iff sizes inGraph count inside _ trimmed
      (dense_trims_resident arena count) seeds, ih (Nat.le_of_succ_le inside),
      Nat.forall_lt_succ_right]

/-- A dense round leaves no edge without a slot if and only if no bucket of a part and no dead
    list is asked for more slots than it has. -/
theorem dense_round_silent_iff (state : State) (size : state.edges.length = wordCount edgeBits)
    (nodes_size : state.nodes.length = wordCount edgeBits) :
    Silent (denseRound endpoint orders edgeBits parts state round).memory ↔
      DenseFits endpoint edgeBits parts (round &&& 1) (liveEdges state.edges) := by
  obtain ⟨_, marks, arena⟩ := @dense_marks_counts endpoint orders edgeBits parts round sizes inGraph
    state
  have marked := @round_start_marked endpoint orders edgeBits parts round sizes inGraph state nodes_size
  have grown := @dense_trims_grow endpoint orders edgeBits parts round sizes inGraph _ arena parts
    (Nat.le_refl _)
  have trims := fun silent none => @dense_trims_silent_iff endpoint orders edgeBits parts round
    state.edges sizes inGraph size _ marked arena silent none parts (Nat.le_refl _)
  rw [dense_round_eq]
  constructor
  · intro silent
    have none : seedExcess endpoint edgeBits parts (round &&& 1) (liveEdges state.edges) = 0 :=
      marks.symm.trans (Nat.le_zero.mp (grown.trans (Nat.le_of_eq silent)))
    refine ⟨seed_excess_eq_zero.mp none, fun part inside => ?_⟩
    have fits := (trims (marks.trans none) none).mp silent (parts - 1 - part) (by omega)
    rwa [Nat.sub_sub_self (by omega)] at fits
  · intro fits
    have none := seed_excess_eq_zero.mpr fits.seeds
    exact (trims (marks.trans none) none).mpr fun offset inside =>
      fits.deaths (parts - 1 - offset) (by omega)

/-- Whatever overflows, trimming some of the last parts counts at most their seeds beyond the
    capacities, and the edges that their dead lists have no slots for. -/
theorem dense_trims_bound (finite : live.Finite) (start : State)
    (size : start.edges.length = wordCount edgeBits) (subset : liveEdges start.edges ⊆ live)
    (arena : ArenaOfPart edgeBits parts (parts - 1) start.memory) (count : Nat)
    (inside : count ≤ parts) :
    ((List.range count).foldl
        (denseTrim endpoint orders edgeBits parts round) start).edges.length = wordCount edgeBits ∧
      liveEdges ((List.range count).foldl
        (denseTrim endpoint orders edgeBits parts round) start).edges ⊆ live ∧
      ((List.range count).foldl
          (denseTrim endpoint orders edgeBits parts round) start).memory.read .overflow ≤
        start.memory.read .overflow +
          ∑ offset ∈ Finset.range count,
            partExcess endpoint edgeBits parts (round &&& 1) live (parts - 1 - offset) +
          count * (deadBucketCount edgeBits parts * (262144 - deadCapacity parts)) := by
  induction count with
  | zero => exact ⟨size, subset, Nat.le_add_right _ _⟩
  | succ count ih =>
    obtain ⟨before_size, before_subset, before_bound⟩ := ih (Nat.le_of_succ_le inside)
    obtain ⟨after_size, after_subset, bound⟩ := @dense_trim_bound endpoint orders edgeBits parts round
      _ sizes inGraph finite count inside _ before_size before_subset
      (dense_trims_resident arena count)
    rw [dense_trims_succ]
    refine ⟨after_size, after_subset, ?_⟩
    rw [Finset.sum_range_succ, Nat.succ_mul]
    omega

/-- Whatever overflows, a dense round from some live edges counts at most twice those beyond the
    capacities of their buckets and the edges that dead lists have no slots for. -/
theorem dense_round_bound (state : State) (size : state.edges.length = wordCount edgeBits) :
    (denseRound endpoint orders edgeBits parts state round).memory.read .overflow ≤
      2 * seedExcess endpoint edgeBits parts (round &&& 1) (liveEdges state.edges) +
        parts * (deadBucketCount edgeBits parts * (262144 - deadCapacity parts)) := by
  obtain ⟨kept, marks, arena⟩ := @dense_marks_counts endpoint orders edgeBits parts round sizes inGraph
    state
  have bound := (@dense_trims_bound endpoint orders edgeBits parts round _ sizes inGraph
    (live_edges_finite state.edges) _ ((congrArg List.length kept).trans size) (by rw [kept]) arena
    parts (Nat.le_refl _)).2.2
  rw [marks, Finset.sum_range_reflect (partExcess endpoint edgeBits parts (round &&& 1)
    (liveEdges state.edges))] at bound
  rw [dense_round_eq, Nat.two_mul]
  exact bound

omit inGraph in
/-- Dead lists have slots for more than three tenths of the edges. -/
theorem dead_lists_lost :
    parts * (deadBucketCount edgeBits parts * (262144 - deadCapacity parts)) ≤ 16384 * 178913 := by
  have most : 2 ^ edgeBits ≤ 2 ^ 32 := Nat.pow_le_pow_right (by decide) sizes.inRange
  have lists : parts * deadBucketCount edgeBits parts ≤ 16384 := by
    have whole := sizes.lists
    rw [← Nat.mul_assoc] at whole
    omega
  have few : parts ≤ 16384 := (Nat.le_mul_of_pos_right parts sizes.some_lists).trans lists
  have slots : 262144 - deadCapacity parts ≤ 178913 := by
    have all : (1 <<< 18) * 38 / 100 = 99614 := rfl
    have left := Nat.mod_lt 99614 (show 0 < parts from Nat.zero_lt_of_lt sizes.two)
    have split := Nat.div_add_mod' 99614 parts
    rw [deadCapacity, all]
    omega
  rw [← Nat.mul_assoc]
  exact Nat.mul_le_mul lists slots

/-- The counter of a dense round does not wrap in a graph of at most thirty-one edge bits, or if at
    most two to the twenty-nine live edges lie beyond the capacities of their buckets. -/
theorem dense_round_unwrapped (state : State) (size : state.edges.length = wordCount edgeBits)
    (few : edgeBits ≤ 31 ∨
      seedExcess endpoint edgeBits parts (round &&& 1) (liveEdges state.edges) ≤ 2 ^ 29) :
    (denseRound endpoint orders edgeBits parts state round).memory.read .overflow < 4294967296 := by
  rcases few with small | few
  · have most : 2 ^ edgeBits ≤ 2 ^ 31 := Nat.pow_le_pow_right (by decide) small
    exact (dense_round_lost sizes inGraph state).trans_le (by omega)
  · have bound := @dense_round_bound endpoint orders edgeBits parts round sizes inGraph state size
    have lists := @dead_lists_lost edgeBits parts sizes
    omega

end

end CuckatooMiner.Metal
