import Mathlib
import CuckatooMiner.MetalRound
import CuckatooMiner.GpuLean

/-!
# Exact rounds on Metal arenas

After the dense rounds all live edges move into one arena, and every further round but the
last reads one of two arenas and writes the other, sorted by the nodes of the other side.
The overflow counter runs through all of them. It is proved that it cannot wrap: what it
counts is missing from the arenas, so that it never exceeds the number of edges, and an
arena that has room keeps at least one of the edges that are sorted into it. While the
counter is zero the arena of a round holds exactly the edges that survive the rounds
before it.
-/

namespace CuckatooMiner.Metal

open PackedBits Reservation LeanRound Pruning TwoCore
open GpuLean (Mates liveEdges)

/-- The edges that survive some rounds. -/
def survivors (endpoint : Nat → Nat → Nat) (edgeBits round : Nat) : Set Nat :=
  trimRounds (Mates fun side edge => endpoint edge side) (graph edgeBits) round

/-- All places of a bitmap of set words are set. -/
theorem test_replicate_ones (count index : Nat) :
    test (List.replicate count (BitVec.allOnes 32)) index = true ↔ index < count * 32 := by
  have place : index % 32 < 32 := Nat.mod_lt _ (by decide)
  rw [test_eq_getLsbD _ _ (by decide), ← Nat.div_lt_iff_lt_mul (by decide)]
  constructor
  · intro set_place
    by_contra outside
    rw [List.getD_eq_default _ _ (by rw [List.length_replicate]; omega), BitVec.getLsbD_zero]
      at set_place
    cases set_place
  · intro inside
    rw [List.getD_eq_getElem _ _ (by rw [List.length_replicate]; exact inside),
      List.getElem_replicate, BitVec.getLsbD_allOnes]
    exact decide_eq_true place

/-! ## Hand-over -/

section

variable {endpoint : Nat → Nat → Nat} {orders : Orders} {edgeBits parts : Nat}

/-- What the hand-over sorts. -/
def handOverItems (endpoint : Nat → Nat → Nat) (orders : Orders) (edgeBits parts startRound capacity : Nat)
    (edges : Bitmap) : List (Nat × Nat) :=
  (List.range parts).flatMap fun part =>
    seedItems (sourceParams edgeBits parts startRound capacity (part * asU32 (partEdges edgeBits parts)))
      endpoint (fun edge _ => edge) ((orders.handOver part).order (aliveEdges
        (sourceParams edgeBits parts startRound capacity (part * asU32 (partEdges edgeBits parts))) edges))

/-- The hand-over sorts the live edges of all parts into a clear arena. -/
theorem hand_over_fill (startRound capacity : Nat) (edges : Bitmap) (memory : Device) :
    handOver endpoint orders edgeBits parts startRound capacity edges memory =
      fill .source capacity (handOverItems endpoint orders edgeBits parts startRound capacity edges)
        (resetOverflow (clearCounts .source (buckets edgeBits) memory)) := by
  rw [handOver, handOverItems, fill, List.foldl_flatMap]
  congr 1
  funext before part
  exact seed_alive_fill _ _ _ _ _

variable (endpoint orders) (sizes : Sizes edgeBits parts)

include sizes

/-- A part has whole lists of edges. -/
theorem source_params_whole (startRound capacity part : Nat) :
    Whole (sourceParams edgeBits parts startRound capacity (part * asU32 (partEdges edgeBits parts))) := by
  have count := part_edges_fit sizes
  constructor
  · show part * asU32 (partEdges edgeBits parts) % 262144 = 0
    rw [count, ← Nat.mul_assoc]
    exact Nat.mul_mod_left _ _
  · show asU32 (partEdges edgeBits parts) % 262144 = 0
    rw [count]
    exact Nat.mul_mod_left _ _

/-- The hand-over sorts at most all edges of the graph. -/
theorem hand_over_items_length (startRound capacity : Nat) (edges : Bitmap) :
    (handOverItems endpoint orders edgeBits parts startRound capacity edges).length ≤ 2 ^ edgeBits := by
  rw [handOverItems, List.length_flatMap]
  have each : ∀ length ∈ (List.range parts).map (fun part =>
      (seedItems (sourceParams edgeBits parts startRound capacity
        (part * asU32 (partEdges edgeBits parts))) endpoint (fun edge _ => edge)
        ((orders.handOver part).order (aliveEdges (sourceParams edgeBits parts startRound capacity
          (part * asU32 (partEdges edgeBits parts))) edges))).length),
      length ≤ deadBucketCount edgeBits parts * 262144 := by
    intro length member
    obtain ⟨part, _, rfl⟩ := List.mem_map.mp member
    rw [seedItems, List.length_map, ((orders.handOver part).perm _).length_eq, ← part_edges_fit sizes]
    exact alive_edges_length (source_params_whole sizes startRound capacity part) edges
  have total := List.sum_le_card_nsmul _ _ each
  rw [List.length_map, List.length_range, smul_eq_mul, sizes.lists] at total
  exact total

variable {endpoint} (inGraph : ∀ edge side, endpoint edge side < 2 ^ edgeBits)

include inGraph

/-- It sorts them into buckets. -/
theorem hand_over_items_inside (startRound capacity : Nat) (edges : Bitmap) :
    ∀ item ∈ handOverItems endpoint orders edgeBits parts startRound capacity edges,
      item.1 < buckets edgeBits := by
  intro item member
  obtain ⟨part, _, listed⟩ := List.mem_flatMap.mp member
  have wide : 18 < (sourceParams edgeBits parts startRound capacity
      (part * asU32 (partEdges edgeBits parts))).edgeBits := sizes.wide
  exact seed_items_inside wide (fun edge => inGraph edge _) _ _ item listed

/-- It sorts exactly the live edges. -/
theorem mem_hand_over_items (startRound capacity : Nat) (edges : Bitmap)
    (size : edges.length = wordCount edgeBits) (bucket edge : Nat) :
    (bucket, edge) ∈ handOverItems endpoint orders edgeBits parts startRound capacity edges ↔
      test edges edge = true ∧ endpoint edge (startRound &&& 1) / 262144 = bucket := by
  have count := part_edges_fit sizes
  have some_lists := sizes.some_lists
  have node : ∀ part edge, endpoint edge (sourceParams edgeBits parts startRound capacity
      (part * asU32 (partEdges edgeBits parts))).side >>> bucketShift (sourceParams edgeBits parts
        startRound capacity (part * asU32 (partEdges edgeBits parts))) =
      endpoint edge (startRound &&& 1) / 262144 := by
    intro part edge
    have wide : 18 < (sourceParams edgeBits parts startRound capacity
      (part * asU32 (partEdges edgeBits parts))).edgeBits := sizes.wide
    exact (bucket_of_node wide _ (inGraph edge _)).1
  have in_part : ∀ part, InPart (sourceParams edgeBits parts startRound capacity
      (part * asU32 (partEdges edgeBits parts))) edge ↔ partOf edgeBits parts edge = part := by
    intro part
    exact in_part_iff sizes 0 part edge
  simp only [handOverItems, List.mem_flatMap, seedItems, List.mem_map, List.mem_range, Prod.mk.injEq,
    node]
  constructor
  · rintro ⟨part, _, other, member, here, rfl⟩
    rw [((orders.handOver part).perm _).mem_iff,
      mem_alive_edges (source_params_whole sizes startRound capacity part)] at member
    exact ⟨member.2, here⟩
  · rintro ⟨live, here⟩
    refine ⟨partOf edgeBits parts edge, part_of_live sizes size edge live, edge, ?_, here, rfl⟩
    rw [((orders.handOver _).perm _).mem_iff,
      mem_alive_edges (source_params_whole sizes startRound capacity _), in_part]
    exact ⟨rfl, live⟩

variable {orders}

/-- Without overflow the hand-over leaves every live edge in its bucket. Edges are in the
    arena or counted, and the counter does not wrap. -/
theorem hand_over_spec (startRound capacity : Nat) (room : 0 < capacity) (edges : Bitmap)
    (size : edges.length = wordCount edgeBits) (memory : Device) :
    (Silent (handOver endpoint orders edgeBits parts startRound capacity edges memory) →
      Holds .source (buckets edgeBits) capacity
        (handOver endpoint orders edgeBits parts startRound capacity edges memory)
        (· ∈ liveEdges edges) (fun edge => endpoint edge (startRound &&& 1))) ∧
      occupancy (arenaLayout .source (buckets edgeBits) capacity)
          (handOver endpoint orders edgeBits parts startRound capacity edges memory) +
        (handOver endpoint orders edgeBits parts startRound capacity edges memory).read .overflow ≤
          4294967296 ∧
      (handOver endpoint orders edgeBits parts startRound capacity edges memory).read .overflow <
        4294967296 := by
  obtain ⟨before, before_eq⟩ : ∃ before : Device,
    before = resetOverflow (clearCounts .source (buckets edgeBits) memory) := ⟨_, rfl⟩
  have reset : before.read .overflow = 0 := by
    rw [before_eq, resetOverflow, Memory.read_write_self]
  have cleared : ∀ bucket < buckets edgeBits, before.read (.count .source bucket) = 0 := by
    intro bucket small
    have not_count : Address.count .source bucket ≠ .overflow := nofun
    rw [before_eq, resetOverflow, Memory.read_write_of_ne not_count]
    exact (clear_counts_spec .source (buckets edgeBits) memory).2.1 bucket small
  have inside := hand_over_items_inside orders sizes inGraph startRound capacity edges
  have length := hand_over_items_length endpoint orders sizes startRound capacity edges
  have most : 2 ^ edgeBits ≤ 4294967296 := Nat.pow_le_pow_right (by decide) sizes.inRange
  have conserved := fill_conserves .source (buckets edgeBits) capacity _ inside before
  have empty : occupancy (arenaLayout .source (buckets edgeBits) capacity) before = 0 :=
    occupancy_cleared cleared
  rw [hand_over_fill, ← before_eq]
  refine ⟨?_, by omega, ?_⟩
  · intro silent bucket small edge
    rw [(fill_spec .source (buckets edgeBits) capacity (buckets_positive edgeBits) _ inside before
      cleared silent).2 bucket small edge, mem_hand_over_items orders sizes inGraph startRound capacity
        edges size]
    rfl
  · rcases List.eq_nil_or_concat (handOverItems endpoint orders edgeBits parts startRound capacity
      edges) with none_left | ⟨front, last, listed⟩
    · rw [none_left, fill, List.foldl_nil, reset]
      decide
    · have some_items : handOverItems endpoint orders edgeBits parts startRound capacity edges ≠ [] := by
        rw [listed, List.concat_eq_append]
        exact List.append_ne_nil_of_right_ne_nil _ (List.cons_ne_nil _ _)
      have fewer := fill_overflow_lt .source (buckets edgeBits) capacity room _ inside before cleared
        some_items
      omega

end

/-! ## Rounds on arenas -/

/-- The arena that a round reads. -/
def arenaOf (startRound round : Nat) : Region :=
  if (round - startRound) % 2 = 0 then .source else .destination

/-- The parameters of a round on arenas. -/
def arenaParams (edgeBits parts startRound capacity round : Nat) : EndpointParams :=
  let source := sourceParams edgeBits parts startRound capacity 0
  if (round - startRound) % 2 = 0 then source else emptyPartLike source

/-- A round is on its side, with arenas of one capacity, and writes what the next one reads. -/
theorem arena_params_spec (edgeBits parts startRound capacity round : Nat)
    (started : startRound ≤ round) :
    (arenaParams edgeBits parts startRound capacity round).edgeBits = edgeBits ∧
      (arenaParams edgeBits parts startRound capacity round).side = round % 2 ∧
      (arenaParams edgeBits parts startRound capacity round).capacity = capacity ∧
      (arenaParams edgeBits parts startRound capacity round).destinationCapacity = capacity ∧
      arenaOf startRound (round + 1) =
        (if (round - startRound) % 2 = 0 then .destination else .source) ∧
      arenaOf startRound round ≠ arenaOf startRound (round + 1) := by
  have other_side : ∀ side < 2, side ^^^ 1 = 1 - side := by decide
  have small : startRound % 2 < 2 := Nat.mod_lt _ Nat.two_pos
  have next : (round + 1 - startRound) % 2 = 1 - (round - startRound) % 2 := by omega
  rw [arenaParams, arenaOf, arenaOf, next]
  by_cases even : (round - startRound) % 2 = 0
  · rw [if_pos even, if_pos even, if_pos even, even]
    refine ⟨rfl, ?_, rfl, rfl, rfl, nofun⟩
    show startRound &&& 1 = round % 2
    rw [Nat.and_one_is_mod]
    omega
  · have odd : (round - startRound) % 2 = 1 := by omega
    rw [if_neg even, if_neg even, if_neg even, odd]
    refine ⟨rfl, ?_, rfl, rfl, rfl, nofun⟩
    show (startRound &&& 1) ^^^ 1 = round % 2
    rw [Nat.and_one_is_mod, other_side _ small]
    omega

/-- The state before a round on arenas. Edges are in the arena or counted, and the counter
    has not wrapped. -/
structure InArena (endpoint : Nat → Nat → Nat) (edgeBits startRound capacity round : Nat)
    (state : State) : Prop where
  edges_size : state.edges.length = wordCount edgeBits
  edges_clear : ∀ edge, test state.edges edge = false
  nodes_size : state.nodes.length = wordCount edgeBits
  holds : Silent state.memory → Holds (arenaOf startRound round) (buckets edgeBits) capacity
    state.memory (· ∈ survivors endpoint edgeBits round) (fun edge => endpoint edge (round % 2))
  counted : occupancy (arenaLayout (arenaOf startRound round) (buckets edgeBits) capacity)
    state.memory + state.memory.read .overflow ≤ 4294967296
  bounded : state.memory.read .overflow < 4294967296

section

variable {endpoint : Nat → Nat → Nat} {orders : Orders} {edgeBits parts : Nat}
variable {startRound capacity round rounds : Nat} {state : State}
/-- A round that is not the last sorts the mated edges of its arena into the next one. -/
theorem hybrid_round_eq (wide : 18 < edgeBits) (started : startRound ≤ round)
    (not_last : round + 1 ≠ rounds) :
    hybridRound endpoint orders edgeBits (sourceParams edgeBits parts startRound capacity 0)
      startRound rounds state round =
      let p := arenaParams edgeBits parts startRound capacity round
      let before := clearCounts (arenaOf startRound (round + 1)) (buckets edgeBits) state.memory
      { state with
        memory := fill (arenaOf startRound (round + 1)) capacity
          (matedItems p endpoint (orders.fused round) (arenaOf startRound round) before) before } := by
  obtain ⟨bits, _, _, to_capacity, next_arena, _⟩ :=
    arena_params_spec edgeBits parts startRound capacity round started
  have unfolded : hybridRound endpoint orders edgeBits
      (sourceParams edgeBits parts startRound capacity 0) startRound rounds state round =
      let p := arenaParams edgeBits parts startRound capacity round
      let toArena := if (round - startRound) % 2 = 0 then .destination else .source
      { state with
        memory := bucketTrimToBucketsFused p endpoint (orders.fused round) (arenaOf startRound round)
          toArena (buckets edgeBits) (clearBucketCounts p toArena state.memory) } := by
    rw [hybridRound, if_neg not_last]
    rfl
  have clears := @clear_bucket_counts_eq (arenaParams edgeBits parts startRound capacity round)
    (by rw [bits]; exact wide) (arenaOf startRound (round + 1))
  have fused := @bucket_trim_fused_fill (arenaParams edgeBits parts startRound capacity round) endpoint
    (orders.fused round) (arenaOf startRound round) (arenaOf startRound (round + 1))
    (clearCounts (arenaOf startRound (round + 1)) (buckets edgeBits) state.memory)
  rw [bits] at clears
  rw [bits, to_capacity] at fused
  rw [unfolded]
  simp only [← next_arena, clears, fused]

variable (wide : 18 < edgeBits) (inGraph : ∀ edge side, endpoint edge side < 2 ^ edgeBits)

include wide inGraph

/-- A round that is not the last leads to the next arena. -/
theorem hybrid_round_fused (room : 0 < capacity) (started : startRound ≤ round)
    (not_last : round + 1 ≠ rounds)
    (here : InArena endpoint edgeBits startRound capacity round state) :
    InArena endpoint edgeBits startRound capacity (round + 1)
      (hybridRound endpoint orders edgeBits (sourceParams edgeBits parts startRound capacity 0)
        startRound rounds state round) := by
  obtain ⟨bits, side, from_capacity, to_capacity, _, different⟩ :=
    arena_params_spec edgeBits parts startRound capacity round started
  rw [hybrid_round_eq wide started not_last]
  obtain ⟨p, p_eq⟩ : ∃ p, p = arenaParams edgeBits parts startRound capacity round := ⟨_, rfl⟩
  obtain ⟨before, before_eq⟩ : ∃ before, before =
    clearCounts (arenaOf startRound (round + 1)) (buckets edgeBits) state.memory := ⟨_, rfl⟩
  obtain ⟨overflow, cleared, arenas⟩ := clear_counts_spec (arenaOf startRound (round + 1))
    (buckets edgeBits) state.memory
  simp only [← p_eq, ← before_eq] at bits side from_capacity to_capacity overflow cleared arenas ⊢
  subst bits
  have kept : occupancy (arenaLayout (arenaOf startRound round) (buckets p.edgeBits) capacity) before =
      occupancy (arenaLayout (arenaOf startRound round) (buckets p.edgeBits) capacity)
        state.memory := by
    rw [occupancy_eq, occupancy_eq]
    congr 2
    funext bucket
    exact arenas _ different capacity bucket
  have inside := mated_items_inside wide inGraph (orders.fused round) (arenaOf startRound round) before
  have length : (matedItems p endpoint (orders.fused round) (arenaOf startRound round) before).length ≤
      occupancy (arenaLayout (arenaOf startRound round) (buckets p.edgeBits) p.capacity) before :=
    mated_items_length (orders.fused round) (arenaOf startRound round) before
  have conserved := fill_conserves (arenaOf startRound (round + 1)) (buckets p.edgeBits) capacity _
    inside before
  have empty : occupancy (arenaLayout (arenaOf startRound (round + 1)) (buckets p.edgeBits) capacity)
      before = 0 := occupancy_cleared cleared
  have counted := here.counted
  rw [from_capacity, kept] at length
  have total : occupancy (arenaLayout (arenaOf startRound (round + 1)) (buckets p.edgeBits) capacity)
        (fill (arenaOf startRound (round + 1)) capacity
          (matedItems p endpoint (orders.fused round) (arenaOf startRound round) before) before) +
      (fill (arenaOf startRound (round + 1)) capacity
        (matedItems p endpoint (orders.fused round) (arenaOf startRound round) before) before).read
          .overflow ≤ 4294967296 := by
    omega
  refine ⟨here.edges_size, here.edges_clear, here.nodes_size, ?_, total, ?_⟩
  · intro silent
    have grows := fill_grows (arenaOf startRound (round + 1)) capacity
      (matedItems p endpoint (orders.fused round) (arenaOf startRound round) before) before
    have silent_before : Silent state.memory := by
      rw [Silent, ← overflow]
      exact Nat.le_zero.mp (grows.trans (Nat.le_of_eq silent))
    have holds : Holds (arenaOf startRound round) (buckets p.edgeBits) p.capacity before
        (· ∈ survivors endpoint p.edgeBits round) (fun edge => endpoint edge p.side) := by
      intro bucket small edge
      rw [from_capacity, side, arenas _ different]
      exact here.holds silent_before bucket small edge
    have fused := (bucket_trim_fused_spec wide inGraph (orders.fused round)
      (arenaOf startRound round) (arenaOf startRound (round + 1)) before holds cleared
      (by rw [bucket_trim_fused_fill, to_capacity]; exact silent)).2
    rw [bucket_trim_fused_fill, to_capacity] at fused
    have other_side : (p.side ^^^ 1) &&& 1 = (round + 1) % 2 := by
      have flip : ∀ side < 2, (side ^^^ 1) &&& 1 = 1 - side := by decide
      rw [side, flip _ (Nat.mod_lt _ Nat.two_pos)]
      omega
    rw [other_side, side] at fused
    exact fused
  · rcases List.eq_nil_or_concat (matedItems p endpoint (orders.fused round)
      (arenaOf startRound round) before) with none_left | ⟨front, last, listed⟩
    · show (fill _ _ _ before).read .overflow < _
      rw [none_left, fill, List.foldl_nil, overflow]
      exact here.bounded
    · have some_items : matedItems p endpoint (orders.fused round) (arenaOf startRound round) before ≠
          [] := by
        rw [listed, List.concat_eq_append]
        exact List.append_ne_nil_of_right_ne_nil _ (List.cons_ne_nil _ _)
      have fewer := fill_overflow_lt (arenaOf startRound (round + 1)) (buckets p.edgeBits) capacity room
        _ inside before cleared some_items
      show (fill _ _ _ before).read .overflow < _
      omega

/-- The last round writes the survivors of all rounds into the bitmap and leaves the arenas
    as they are. -/
theorem hybrid_round_last (started : startRound ≤ round) (last : round + 1 = rounds)
    (here : InArena endpoint edgeBits startRound capacity round state) :
    (hybridRound endpoint orders edgeBits (sourceParams edgeBits parts startRound capacity 0)
        startRound rounds state round).memory = state.memory ∧
      (Silent state.memory → liveEdges (hybridRound endpoint orders edgeBits
        (sourceParams edgeBits parts startRound capacity 0) startRound rounds state round).edges =
          survivors endpoint edgeBits rounds) := by
  obtain ⟨bits, side, from_capacity, _, _, _⟩ :=
    arena_params_spec edgeBits parts startRound capacity round started
  have unfolded : hybridRound endpoint orders edgeBits
      (sourceParams edgeBits parts startRound capacity 0) startRound rounds state round =
      let p := arenaParams edgeBits parts startRound capacity round
      let nodes := bucketMark p endpoint (arenaOf startRound round) (buckets edgeBits) state.memory
        (clearNodes p state.nodes)
      { state with
        nodes := nodes
        edges := bucketTrimToBitmap p endpoint (arenaOf startRound round) (buckets edgeBits)
          state.memory nodes state.edges } := by
    rw [hybridRound, if_pos last]
    rfl
  rw [unfolded]
  obtain ⟨p, p_eq⟩ : ∃ p, p = arenaParams edgeBits parts startRound capacity round := ⟨_, rfl⟩
  simp only [← p_eq] at bits side from_capacity ⊢
  subst bits
  refine ⟨trivial, fun silent => ?_⟩
  have holds : Holds (arenaOf startRound round) (buckets p.edgeBits) p.capacity state.memory
      (· ∈ survivors endpoint p.edgeBits round) (fun edge => endpoint edge p.side) := by
    rw [from_capacity, side]
    exact here.holds silent
  obtain ⟨cleared_size, cleared⟩ := test_clear_nodes p wide state.nodes here.nodes_size
  have marks := (mark_buckets_spec wide (fun edge => endpoint edge p.side) (arenaOf startRound round)
    state.memory (clearNodes p state.nodes) cleared_size).2 _ holds (fun edge _ => inGraph edge _)
  have bits := word_count_bits (Nat.le_of_lt wide)
  apply Set.ext
  intro edge
  refine (bucket_trim_to_bitmap_spec wide (fun edge => inGraph edge _) (arenaOf startRound round)
    state.memory holds _ state.edges ?_ edge).trans ?_
  · intro survivor member
    have in_graph : survivor ∈ graph p.edgeBits := trim_rounds_subset round member
    rw [here.edges_size, Nat.div_lt_iff_lt_mul (by decide), bits]
    exact in_graph
  · rw [here.edges_clear, bucketMark, marks, cleared]
    simp only [Bool.false_eq_true, false_or]
    rw [← last, side]
    rfl

/-- All rounds on arenas but the last. -/
theorem hybrid_rounds_fused (room : 0 < capacity) (count : Nat)
    (not_all : startRound + count < rounds)
    (start : InArena endpoint edgeBits startRound capacity startRound state) :
    InArena endpoint edgeBits startRound capacity (startRound + count)
      ((List.range' startRound count).foldl (hybridRound endpoint orders edgeBits
        (sourceParams edgeBits parts startRound capacity 0) startRound rounds) state) := by
  induction count with
  | zero => exact start
  | succ count ih =>
    have started : startRound ≤ startRound + count := Nat.le_add_right _ _
    have not_last : startRound + count + 1 ≠ rounds := by omega
    rw [List.range'_1_concat, List.foldl_append]
    exact hybrid_round_fused wide inGraph room started not_last (ih (by omega))

/-- The rounds on arenas do not wrap the counter, and without overflow they write the
    survivors of all rounds. -/
theorem hybrid_rounds_spec (room : 0 < capacity) (some_left : startRound < rounds)
    (start : InArena endpoint edgeBits startRound capacity startRound state) :
    ((List.range' startRound (rounds - startRound)).foldl (hybridRound endpoint orders edgeBits
        (sourceParams edgeBits parts startRound capacity 0) startRound rounds) state).memory.read
          .overflow < 4294967296 ∧
      (Silent ((List.range' startRound (rounds - startRound)).foldl (hybridRound endpoint orders
        edgeBits (sourceParams edgeBits parts startRound capacity 0) startRound rounds) state).memory →
        liveEdges ((List.range' startRound (rounds - startRound)).foldl (hybridRound endpoint orders
          edgeBits (sourceParams edgeBits parts startRound capacity 0) startRound rounds)
            state).edges = survivors endpoint edgeBits rounds) := by
  obtain ⟨count, counted⟩ : ∃ count, rounds - startRound = count + 1 :=
    ⟨rounds - startRound - 1, by omega⟩
  have not_all : startRound + count < rounds := by omega
  have started : startRound ≤ startRound + count := Nat.le_add_right _ _
  have last : startRound + count + 1 = rounds := by omega
  have fused : InArena endpoint edgeBits startRound capacity (startRound + count)
      ((List.range' startRound count).foldl (hybridRound endpoint orders edgeBits
        (sourceParams edgeBits parts startRound capacity 0) startRound rounds) state) :=
    hybrid_rounds_fused wide inGraph room count not_all start
  rw [counted, List.range'_1_concat, List.foldl_append]
  obtain ⟨kept, written⟩ := hybrid_round_last wide inGraph started last fused
  rw [List.foldl_cons, List.foldl_nil, kept]
  exact ⟨fused.bounded, written⟩

end

end CuckatooMiner.Metal
