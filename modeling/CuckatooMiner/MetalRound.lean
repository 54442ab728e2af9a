import Mathlib
import CuckatooMiner.MetalKernels

/-!
# Exact dense rounds on Metal

A dense round seeds its parts one after another into the same arena. While the parts are
marked, the node bitmap holds the nodes of the parts marked so far, and in the end the
arena holds the edges of the last part. While they are trimmed from the last part down,
every edge of a trimmed part is kept exactly if it has a live mate, and the other edges
are untouched. Both say nothing once the overflow counter has moved: it does not decrease
before the end of the round, where the host reads it.
-/

namespace CuckatooMiner.Metal

open PackedBits Reservation LeanRound

/-! ## Sizes -/

/-- A bitmap of the graph has a place for each edge. -/
theorem word_count_bits {edgeBits : Nat} (wide : 18 ≤ edgeBits) :
    wordCount edgeBits * 32 = 2 ^ edgeBits := by
  rw [wordCount, Nat.one_shiftLeft]
  exact Nat.div_mul_cancel (pow_dvd_pow 2 (by omega : 5 ≤ edgeBits))

/-- The parts divide the edges into whole lists of dead edges. -/
structure Sizes (edgeBits parts : Nat) : Prop where
  wide : 18 < edgeBits
  inRange : edgeBits ≤ 32
  two : 2 ≤ parts
  lists : parts * (deadBucketCount edgeBits parts * 262144) = 2 ^ edgeBits
  part : partEdges edgeBits parts = deadBucketCount edgeBits parts * 262144
  some_lists : 0 < deadBucketCount edgeBits parts

/-- A power of two of at least two parts that are not smaller than a list. -/
theorem sizes_of_power {edgeBits parts power : Nat} (power_of_two : parts = 2 ^ power)
    (inRange : 18 ≤ edgeBits ∧ edgeBits ≤ 32) (two : 2 ≤ parts) (most : parts ≤ 2 ^ (edgeBits - 18)) :
    Sizes edgeBits parts := by
  subst power_of_two
  have fewer : power ≤ edgeBits - 18 := (Nat.pow_le_pow_iff_right (by decide)).mp most
  have some_parts : 1 ≤ power := by
    rcases Nat.eq_zero_or_pos power with rfl | positive
    · exact absurd two (by decide)
    · exact positive
  obtain ⟨rest, total⟩ : ∃ rest, edgeBits = power + rest + 18 := ⟨edgeBits - 18 - power, by omega⟩
  subst total
  have split : (2 : Nat) ^ (power + rest + 18) = 2 ^ power * (2 ^ rest * 262144) := by
    rw [pow_add, pow_add, Nat.mul_assoc]
    rfl
  have part : partEdges (power + rest + 18) (2 ^ power) = 2 ^ rest * 262144 := by
    rw [partEdges, Nat.one_shiftLeft, split, Nat.mul_div_cancel_left _ (Nat.two_pow_pos power)]
  have lists : deadBucketCount (power + rest + 18) (2 ^ power) = 2 ^ rest := by
    have positive := Nat.two_pow_pos rest
    rw [deadBucketCount, part, Nat.shiftRight_eq_div_pow, show (2 : Nat) ^ 18 = 262144 from rfl,
      Nat.mul_div_cancel _ (by decide)]
    exact Nat.max_eq_left positive
  constructor
  · omega
  · exact inRange.2
  · exact two
  · rw [lists, split]
  · rw [part, lists]
  · rw [lists]
    exact Nat.two_pow_pos rest

/-- The part of an edge. -/
def partOf (edgeBits parts edge : Nat) : Nat := edge / (deadBucketCount edgeBits parts * 262144)

section

variable {edgeBits parts : Nat} (sizes : Sizes edgeBits parts) (round part : Nat)

include sizes

/-- The edges of a part fit the 32-bit numbers. -/
theorem part_edges_fit : asU32 (partEdges edgeBits parts) = deadBucketCount edgeBits parts * 262144 := by
  have two := sizes.two
  have all : 2 * (deadBucketCount edgeBits parts * 262144) ≤ 2 ^ edgeBits :=
    (Nat.mul_le_mul_right _ two).trans (Nat.le_of_eq sizes.lists)
  have most : 2 ^ edgeBits ≤ 2 ^ 32 := Nat.pow_le_pow_right (by decide) sizes.inRange
  rw [asU32, sizes.part]
  exact Nat.mod_eq_of_lt (by omega)

/-- A part has whole lists of edges, all inside the graph. -/
theorem dense_params_whole (inside : part < parts) :
    Whole (denseParams edgeBits parts round part) ∧
      (denseParams edgeBits parts round part).edgeCount = deadBucketCount edgeBits parts * 262144 ∧
      (denseParams edgeBits parts round part).edgeBase + deadBucketCount edgeBits parts * 262144 ≤
        2 ^ edgeBits := by
  have count := part_edges_fit sizes
  have base : (denseParams edgeBits parts round part).edgeBase =
      part * (deadBucketCount edgeBits parts * 262144) := by
    rw [← count]
    rfl
  refine ⟨⟨?_, ?_⟩, count, ?_⟩
  · rw [base, ← Nat.mul_assoc]
    exact Nat.mul_mod_left _ _
  · show asU32 (partEdges edgeBits parts) % 262144 = 0
    rw [count]
    exact Nat.mul_mod_left _ _
  · rw [base, ← Nat.succ_mul, ← sizes.lists]
    exact Nat.mul_le_mul_right _ inside

/-- An edge lies in its part alone. -/
theorem in_part_iff (edge : Nat) :
    InPart (denseParams edgeBits parts round part) edge ↔ partOf edgeBits parts edge = part := by
  have count := part_edges_fit sizes
  have some_lists := sizes.some_lists
  show part * asU32 (partEdges edgeBits parts) ≤ edge ∧
    edge < part * asU32 (partEdges edgeBits parts) + asU32 (partEdges edgeBits parts) ↔ _
  rw [count, partOf, Nat.div_eq_iff (by omega)]
  omega

/-- The counts of all dead lists of a part are cleared. -/
theorem clear_dead_counts_eq :
    clearDeadCounts (denseParams edgeBits parts round part) =
      clearCounts .dead (deadBucketCount edgeBits parts) := by
  have lists : max 1 ((denseParams edgeBits parts round part).edgeCount >>> 18) =
      deadBucketCount edgeBits parts := by
    have count : (denseParams edgeBits parts round part).edgeCount =
        deadBucketCount edgeBits parts * 262144 := part_edges_fit sizes
    rw [count, Nat.shiftRight_eq_div_pow, Nat.mul_div_cancel _ (by decide)]
    exact Nat.max_eq_right sizes.some_lists
  rw [clearDeadCounts, lists]

/-- A live edge of a bitmap of the graph lies in some part. -/
theorem part_of_live {edges : Bitmap} (size : edges.length = wordCount edgeBits) (edge : Nat)
    (live : test edges edge = true) : partOf edgeBits parts edge < parts := by
  have inside := inside_of_test edges edge live
  have some_lists := sizes.some_lists
  rw [size, Nat.div_lt_iff_lt_mul (by decide), word_count_bits (Nat.le_of_lt sizes.wide),
    ← sizes.lists] at inside
  exact (Nat.div_lt_iff_lt_mul (by omega)).mpr inside

end

/-- Clearing the nodes of the graph leaves none. -/
theorem test_clear_nodes (p : EndpointParams) (wide : 18 < p.edgeBits) (nodes : Bitmap)
    (size : nodes.length = wordCount p.edgeBits) :
    (clearNodes p nodes).length = wordCount p.edgeBits ∧
      ∀ node, test (clearNodes p nodes) node = false := by
  have words : wordCount p.edgeBits = 1 <<< (p.edgeBits - 5) := by
    rw [wordCount, Nat.one_shiftLeft, Nat.one_shiftLeft]
    exact Nat.pow_div (by omega : 5 ≤ p.edgeBits) (by decide)
  have cleared : clearNodes p nodes = List.replicate nodes.length 0#32 := by
    apply List.ext_getElem
    · rw [clearNodes, List.length_mapIdx, List.length_replicate]
    · intro word bound _
      rw [clearNodes, List.length_mapIdx, size, words] at bound
      simp only [clearNodes, List.getElem_mapIdx, List.getElem_replicate, if_pos bound]
  rw [cleared]
  exact ⟨List.length_replicate.trans size, fun node => test_replicate_zero _ node⟩

/-! ## Invariants of a dense round -/

section

variable (endpoint : Nat → Nat → Nat) (edgeBits parts round : Nat) (edges : Bitmap)

/-- Nothing has found no slot since the counter was reset. The counter is a natural number here;
    the host sees its lowest thirty-two bits. -/
def Silent (memory : Device) : Prop := memory.read .overflow = 0

/-- The arena of seeds holds the live edges of a part. -/
def Seeded (part : Nat) (memory : Device) : Prop :=
  Holds .seed (buckets edgeBits) (denseCapacity edgeBits parts) memory
    (fun edge => partOf edgeBits parts edge = part ∧ test edges edge = true)
    (fun edge => endpoint edge (round &&& 1))

/-- The state after some parts have been marked. The last of all stays in the arena. -/
structure Marked (count : Nat) (state : State) : Prop where
  edges_kept : state.edges = edges
  size : state.nodes.length = wordCount edgeBits
  nodes : Silent state.memory → ∀ node, test state.nodes node = true ↔
    ∃ edge, test edges edge = true ∧ partOf edgeBits parts edge < count ∧
      endpoint edge (round &&& 1) = node
  resident : Silent state.memory → count = parts →
    Seeded endpoint edgeBits parts round edges (parts - 1) state.memory

/-- The state after some of the last parts have been trimmed. Before the first of them the
    seeds of the last part are in the arena. -/
structure Trimmed (count : Nat) (state : State) : Prop where
  edges_size : state.edges.length = wordCount edgeBits
  nodes_size : state.nodes.length = wordCount edgeBits
  nodes : Silent state.memory → ∀ node, test state.nodes node = true ↔
    ∃ edge, test edges edge = true ∧ endpoint edge (round &&& 1) = node
  live : Silent state.memory → ∀ edge, test state.edges edge = true ↔
    test edges edge = true ∧ (parts ≤ partOf edgeBits parts edge + count →
      Mated (fun edge => endpoint edge (round &&& 1)) edges edge)
  resident : Silent state.memory → count = 0 →
    Seeded endpoint edgeBits parts round state.edges (parts - 1) state.memory

end

/-- The state at the start of a dense round: the counter is reset and there are no nodes. -/
def roundStart (edgeBits parts round : Nat) (state : State) : State :=
  { state with
    memory := resetOverflow state.memory
    nodes := clearNodes (denseParams edgeBits parts round 0) state.nodes }

/-! ## The mark phase -/

section

variable {endpoint : Nat → Nat → Nat} {orders : Orders} {edgeBits parts round : Nat}
variable {edges : Bitmap} (sizes : Sizes edgeBits parts)
variable (inGraph : ∀ edge side, endpoint edge side < 2 ^ edgeBits)

include sizes inGraph

/-- Seeding a part with edges, with the counts cleared first. -/
theorem seed_part (part : Nat) (inside : part < parts) (schedule : Schedule) (live : Bitmap)
    (memory : Device)
    (silent : Silent (bucketSeedAliveWords (denseParams edgeBits parts round part) endpoint schedule
      .seed live (clearBucketCounts (denseParams edgeBits parts round part) .seed memory))) :
    Silent memory ∧ Seeded endpoint edgeBits parts round live part
      (bucketSeedAliveWords (denseParams edgeBits parts round part) endpoint schedule .seed live
        (clearBucketCounts (denseParams edgeBits parts round part) .seed memory)) := by
  have wide : 18 < (denseParams edgeBits parts round part).edgeBits := sizes.wide
  have counts := clear_bucket_counts_eq wide Region.seed
  obtain ⟨earlier, holds⟩ := seed_words_holds wide (dense_params_whole sizes round part inside).1
    (fun edge => inGraph edge _) schedule .seed live _
    (by rw [counts]; exact (clear_counts_spec .seed _ memory).2.1) silent
  refine ⟨earlier, ?_⟩
  intro bucket small edge
  exact (holds bucket small edge).trans
    (and_congr_left' (and_congr_left' (in_part_iff sizes round part edge)))

/-- Marking one more part. -/
theorem dense_mark_marked (part : Nat) (inside : part < parts) (state : State)
    (marked : Marked endpoint edgeBits parts round edges part state) :
    Marked endpoint edgeBits parts round edges (part + 1)
      (denseMark endpoint orders edgeBits parts round state part) := by
  have kept := marked.edges_kept
  subst kept
  have wide : 18 < (denseParams edgeBits parts round part).edgeBits := sizes.wide
  have whole := (dense_params_whole sizes round part inside).1
  have counts := clear_bucket_counts_eq wide Region.seed
  rw [denseMark]
  split
  · rename_i last
    have marks := mark_buckets_spec wide (fun edge => endpoint edge (round &&& 1)) .seed
      (bucketSeedAliveWords (denseParams edgeBits parts round part) endpoint
        (orders.markSeed round part) .seed state.edges
        (clearBucketCounts (denseParams edgeBits parts round part) .seed state.memory))
      state.nodes marked.size
    refine ⟨rfl, marks.1, ?_, ?_⟩
    · intro silent node
      obtain ⟨earlier, holds⟩ := seed_part sizes inGraph part inside _ state.edges state.memory silent
      refine (marks.2 _ holds (fun edge _ => inGraph edge _) node).trans ?_
      rw [marked.nodes earlier]
      constructor
      · rintro (⟨edge, live, before, here⟩ | ⟨edge, ⟨in_part, live⟩, here⟩)
        · exact ⟨edge, live, by omega, here⟩
        · exact ⟨edge, live, by omega, here⟩
      · rintro ⟨edge, live, before, here⟩
        rcases Nat.lt_or_eq_of_le (Nat.le_of_lt_succ before) with earlier_part | in_part
        · exact Or.inl ⟨edge, live, earlier_part, here⟩
        · exact Or.inr ⟨edge, ⟨in_part, live⟩, here⟩
    · intro silent _
      have resident : parts - 1 = part := by omega
      rw [resident]
      exact (seed_part sizes inGraph part inside _ state.edges state.memory silent).2
  · rename_i earlier_part
    have marks := mark_buckets_spec wide (fun node => node) .seed
      (bucketSeedAliveNodes (denseParams edgeBits parts round part) endpoint
        (orders.markSeed round part) .seed state.edges
        (clearBucketCounts (denseParams edgeBits parts round part) .seed state.memory))
      state.nodes marked.size
    refine ⟨rfl, marks.1, ?_, ?_⟩
    · intro silent node
      obtain ⟨earlier, holds⟩ := seed_nodes_holds wide whole (fun edge => inGraph edge _)
        (orders.markSeed round part) .seed state.edges _
        (by rw [counts]; exact (clear_counts_spec .seed _ state.memory).2.1) silent
      refine (marks.2 _ holds ?_ node).trans ?_
      · rintro value ⟨edge, _, rfl⟩
        exact inGraph edge _
      · rw [marked.nodes earlier]
        constructor
        · rintro (⟨edge, live, before, here⟩ | ⟨_, ⟨edge, ⟨in_part, live⟩, here⟩, rfl⟩)
          · exact ⟨edge, live, by omega, here⟩
          · rw [in_part_iff sizes] at in_part
            exact ⟨edge, live, by omega, here⟩
        · rintro ⟨edge, live, before, here⟩
          rcases Nat.lt_or_eq_of_le (Nat.le_of_lt_succ before) with before_part | in_part
          · exact Or.inl ⟨edge, live, before_part, here⟩
          · exact Or.inr ⟨node, ⟨edge, ⟨(in_part_iff sizes round part edge).mpr in_part, live⟩, here⟩,
              rfl⟩
    · intro _ all
      exact absurd all earlier_part

/-- Marking all parts, from a bitmap without nodes. -/
theorem dense_marks_marked (state : State) (kept : state.edges = edges)
    (size : state.nodes.length = wordCount edgeBits)
    (cleared : ∀ node, test state.nodes node = false) (count : Nat) (inside : count ≤ parts) :
    Marked endpoint edgeBits parts round edges count
      ((List.range count).foldl (denseMark endpoint orders edgeBits parts round) state) := by
  have two := sizes.two
  induction count with
  | zero =>
    refine ⟨kept, size, ?_, ?_⟩
    · intro _ node
      rw [List.range_zero, List.foldl_nil, cleared]
      constructor
      · exact nofun
      · rintro ⟨_, _, before, _⟩
        exact absurd before (Nat.not_lt_zero _)
    · intro _ none_left
      omega
  | succ count ih =>
    rw [List.range_succ, List.foldl_append]
    exact dense_mark_marked sizes inGraph count inside _ (ih (Nat.le_of_succ_le inside))

/-! ## The trim phase -/

/-- Collecting and applying the dead edges of a part whose live edges are in the arena. -/
theorem trim_seeded_part (part : Nat) (inside : part < parts) (schedule : Schedule) (memory : Device)
    (live nodes : Bitmap) (size : live.length = wordCount edgeBits)
    (seeded : Silent memory → Seeded endpoint edgeBits parts round live part memory)
    (silent : Silent (bucketCollectDead (denseParams edgeBits parts round part) endpoint schedule
      (buckets edgeBits) (clearDeadCounts (denseParams edgeBits parts round part) memory) nodes)) :
    Silent memory ∧ ∀ edge,
      test (bucketApplyDead (denseParams edgeBits parts round part) (deadBucketCount edgeBits parts)
        (bucketCollectDead (denseParams edgeBits parts round part) endpoint schedule
          (buckets edgeBits) (clearDeadCounts (denseParams edgeBits parts round part) memory) nodes)
        live) edge = true ↔
        test live edge = true ∧ (partOf edgeBits parts edge = part →
          test nodes (endpoint edge (round &&& 1) ^^^ 1) = true) := by
  obtain ⟨whole, count, fits⟩ := dense_params_whole sizes round part inside
  have wide : 18 < (denseParams edgeBits parts round part).edgeBits := sizes.wide
  have some_lists := sizes.some_lists
  have bits := word_count_bits (Nat.le_of_lt sizes.wide)
  rw [clear_dead_counts_eq sizes] at silent ⊢
  obtain ⟨overflow, cleared, arenas⟩ := clear_counts_spec .dead (deadBucketCount edgeBits parts) memory
  have silent_before : Silent memory := by
    have grows := fill_grows .dead (denseParams edgeBits parts round part).destinationCapacity
      (keyedItems (fun edge => (edge - (denseParams edgeBits parts round part).edgeBase) >>> 18)
        (dyingEdges (denseParams edgeBits parts round part) endpoint schedule
          (clearCounts .dead (deadBucketCount edgeBits parts) memory) nodes))
      (clearCounts .dead (deadBucketCount edgeBits parts) memory)
    rw [← bucket_collect_dead_fill] at grows
    exact Nat.le_zero.mp (grows.trans (Nat.le_of_eq silent))
  have holds : Holds .seed (buckets edgeBits) (denseCapacity edgeBits parts)
      (clearCounts .dead (deadBucketCount edgeBits parts) memory)
      (fun edge => InPart (denseParams edgeBits parts round part) edge ∧ test live edge = true)
      (fun edge => endpoint edge (round &&& 1)) := by
    intro bucket small edge
    rw [arenas .seed nofun]
    exact (seeded silent_before bucket small edge).trans
      (and_congr_left' (and_congr_left' (in_part_iff sizes round part edge).symm))
  obtain ⟨_, doomed⟩ := bucket_collect_dead_spec wide (fun edge => inGraph edge _) schedule _
    (deadBucketCount edgeBits parts) some_lists count (fun _ taken => taken.1) holds nodes cleared silent
  refine ⟨silent_before, fun edge => ?_⟩
  refine ((bucket_apply_dead_spec _ _ live whole.base (by rw [size, bits]; exact fits)).2 _
    (fun edge dying => by rw [← count]; exact dying.1.1) doomed edge).trans ?_
  refine and_congr_right fun is_live => ?_
  simp only [in_part_iff sizes, not_and, Bool.not_eq_false]
  exact ⟨fun keeps in_part => keeps ⟨in_part, is_live⟩, fun keeps taken => keeps taken.1⟩

omit sizes inGraph in
/-- A bitmap that holds the nodes of all live edges tells which edges have a live mate. -/
theorem marked_mate {nodes : Bitmap} (marks : ∀ node, test nodes node = true ↔
      ∃ edge, test edges edge = true ∧ endpoint edge (round &&& 1) = node) (edge : Nat) :
    test nodes (endpoint edge (round &&& 1) ^^^ 1) = true ↔
      Mated (fun edge => endpoint edge (round &&& 1)) edges edge :=
  marks _

/-- The memory with the live edges of a part, counted from the last one, whose seeds are still
    there. -/
def trimSeeds (endpoint : Nat → Nat → Nat) (orders : Orders) (edgeBits parts round : Nat)
    (state : State) (offset : Nat) : Device :=
  if offset = 0 then state.memory
  else bucketSeedAliveWords (denseParams edgeBits parts round (parts - 1 - offset)) endpoint
    (orders.trimSeed round (parts - 1 - offset)) .seed state.edges
    (clearBucketCounts (denseParams edgeBits parts round (parts - 1 - offset)) .seed state.memory)

omit sizes inGraph in
/-- Trimming a part collects and applies the dead edges among its seeds. -/
theorem dense_trim_eq (state : State) (offset : Nat) :
    denseTrim endpoint orders edgeBits parts round state offset =
      let p := denseParams edgeBits parts round (parts - 1 - offset)
      let dead := bucketCollectDead p endpoint (orders.deaths round (parts - 1 - offset))
        (buckets edgeBits)
        (clearDeadCounts p (trimSeeds endpoint orders edgeBits parts round state offset)) state.nodes
      { state with
        memory := dead
        edges := bucketApplyDead p (deadBucketCount edgeBits parts) dead state.edges } := rfl

/-- Without overflow the memory holds the live edges of the part. -/
theorem trim_seeds_seeded (offset : Nat) (inside : offset < parts) (state : State)
    (trimmed : Trimmed endpoint edgeBits parts round edges offset state)
    (silent : Silent (trimSeeds endpoint orders edgeBits parts round state offset)) :
    Silent state.memory ∧ Seeded endpoint edgeBits parts round state.edges (parts - 1 - offset)
      (trimSeeds endpoint orders edgeBits parts round state offset) := by
  rw [trimSeeds] at silent ⊢
  split at silent
  · rename_i first
    subst first
    exact ⟨silent, trimmed.resident silent rfl⟩
  · rename_i later
    rw [if_neg later]
    exact seed_part sizes inGraph _ (by omega) _ state.edges state.memory silent

/-- Trimming one more part, counted from the last. -/
theorem dense_trim_trimmed (offset : Nat) (inside : offset < parts) (state : State)
    (trimmed : Trimmed endpoint edgeBits parts round edges offset state) :
    Trimmed endpoint edgeBits parts round edges (offset + 1)
      (denseTrim endpoint orders edgeBits parts round state offset) := by
  have part_inside : parts - 1 - offset < parts := by omega
  obtain ⟨whole, count, fits⟩ := dense_params_whole sizes round (parts - 1 - offset) part_inside
  have bits := word_count_bits (Nat.le_of_lt sizes.wide)
  have seeded := @trim_seeds_seeded endpoint orders edgeBits parts round edges sizes inGraph offset
    inside state trimmed
  have trims := trim_seeded_part sizes inGraph (parts - 1 - offset) part_inside
    (orders.deaths round (parts - 1 - offset))
    (trimSeeds endpoint orders edgeBits parts round state offset) state.edges state.nodes
    trimmed.edges_size (fun silent => (seeded silent).2)
  rw [dense_trim_eq]
  refine ⟨?_, trimmed.nodes_size, ?_, ?_, ?_⟩
  · exact ((bucket_apply_dead_spec _ _ state.edges whole.base
      (by rw [trimmed.edges_size, bits]; exact fits)).1).trans trimmed.edges_size
  · intro silent
    exact trimmed.nodes (seeded (trims silent).1).1
  · intro silent edge
    obtain ⟨silent_memory, keeps⟩ := trims silent
    obtain ⟨earlier, _⟩ := seeded silent_memory
    refine (keeps edge).trans ?_
    rw [trimmed.live earlier, marked_mate (trimmed.nodes earlier)]
    constructor
    · rintro ⟨⟨live, before⟩, now⟩
      refine ⟨live, fun done => ?_⟩
      by_cases here : partOf edgeBits parts edge = parts - 1 - offset
      · exact now here
      · exact before (by omega)
    · rintro ⟨live, mated⟩
      exact ⟨⟨live, fun done => mated (by omega)⟩, fun here => mated (by omega)⟩
  · intro _ none_done
    exact absurd none_done (Nat.succ_ne_zero offset)

/-- Trimming some of the last parts after all have been marked. -/
theorem dense_trims_trimmed (size : edges.length = wordCount edgeBits) (state : State)
    (marked : Marked endpoint edgeBits parts round edges parts state) (count : Nat)
    (inside : count ≤ parts) :
    Trimmed endpoint edgeBits parts round edges count
      ((List.range count).foldl (denseTrim endpoint orders edgeBits parts round) state) := by
  induction count with
  | zero =>
    have kept := marked.edges_kept
    refine ⟨by rw [List.range_zero, List.foldl_nil, kept, size], marked.size, ?_, ?_, ?_⟩
    · intro silent node
      refine (marked.nodes silent node).trans ⟨?_, ?_⟩
      · rintro ⟨edge, live, _, here⟩
        exact ⟨edge, live, here⟩
      · rintro ⟨edge, live, here⟩
        exact ⟨edge, live, part_of_live sizes size edge live, here⟩
    · intro _ edge
      rw [List.range_zero, List.foldl_nil, kept]
      refine ⟨fun live => ⟨live, fun beyond => ?_⟩, And.left⟩
      have in_part := part_of_live sizes size edge live
      omega
    · intro silent _
      rw [List.range_zero, List.foldl_nil, kept]
      exact marked.resident silent rfl
  | succ count ih =>
    rw [List.range_succ, List.foldl_append]
    exact dense_trim_trimmed sizes inGraph count inside _ (ih (Nat.le_of_succ_le inside))

/-! ## Dense rounds -/

omit sizes inGraph in
/-- A round starts with the counter reset and no nodes. -/
theorem dense_round_eq (state : State) :
    denseRound endpoint orders edgeBits parts state round =
      (List.range parts).foldl (denseTrim endpoint orders edgeBits parts round)
        ((List.range parts).foldl (denseMark endpoint orders edgeBits parts round)
          (roundStart edgeBits parts round state)) := rfl

/-- All parts are marked from the start of a round. -/
theorem round_start_marked (state : State) (nodes_size : state.nodes.length = wordCount edgeBits) :
    Marked endpoint edgeBits parts round state.edges parts
      ((List.range parts).foldl (denseMark endpoint orders edgeBits parts round)
        (roundStart edgeBits parts round state)) := by
  have wide : 18 < (denseParams edgeBits parts round 0).edgeBits := sizes.wide
  obtain ⟨cleared_size, cleared⟩ := test_clear_nodes (denseParams edgeBits parts round 0) wide
    state.nodes nodes_size
  exact dense_marks_marked sizes inGraph (roundStart edgeBits parts round state) rfl cleared_size cleared
    parts (Nat.le_refl _)

/-- A dense round keeps the sizes of the bitmaps, and without overflow it keeps exactly the
    edges with a live mate. -/
theorem dense_round_spec (state : State) (size : state.edges.length = wordCount edgeBits)
    (nodes_size : state.nodes.length = wordCount edgeBits) :
    (denseRound endpoint orders edgeBits parts state round).edges.length = wordCount edgeBits ∧
      (denseRound endpoint orders edgeBits parts state round).nodes.length = wordCount edgeBits ∧
      (Silent (denseRound endpoint orders edgeBits parts state round).memory → ∀ edge,
        test (denseRound endpoint orders edgeBits parts state round).edges edge = true ↔
          test state.edges edge = true ∧
            Mated (fun edge => endpoint edge (round &&& 1)) state.edges edge) := by
  have marked : Marked endpoint edgeBits parts round state.edges parts
      ((List.range parts).foldl (denseMark endpoint orders edgeBits parts round)
        (roundStart edgeBits parts round state)) := round_start_marked sizes inGraph state nodes_size
  have done : Trimmed endpoint edgeBits parts round state.edges parts
      (denseRound endpoint orders edgeBits parts state round) :=
    dense_trims_trimmed sizes inGraph size _ marked parts (Nat.le_refl _)
  refine ⟨done.edges_size, done.nodes_size, fun silent edge => ?_⟩
  rw [done.live silent]
  exact and_congr_right fun _ => ⟨fun mated => mated (Nat.le_add_left _ _), fun mated _ => mated⟩

end

end CuckatooMiner.Metal
