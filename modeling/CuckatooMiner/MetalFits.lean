import Mathlib
import CuckatooMiner.MetalLoads

/-!
# When Metal trimming has a slot for every edge

Which edges have a slot is decided by the graph: by the loads of the exact survivors of each
round. A whole run leaves no edge without a slot if and only if the dense rounds fit, and
every bucket of the arenas has slots for the survivors that are sorted into it. The arenas
of all rounds have the size that the hand-over gave them, which follows from the number of
edges left after three rounds.

The first round that does not fit is seen by the host as long as its counter does not wrap,
which the loads bound as well. Graphs of thirty-two edge bits with more than two to the
twenty-nine seeds beyond the capacities of their buckets are left open: whether their counter
comes to exactly two to the thirty-two depends on the order of the threads.
-/

namespace CuckatooMiner.Metal

open PackedBits Reservation LeanRound Segments
open GpuLean (Mates liveEdges)

section

variable (endpoint : Nat → Nat → Nat) (edgeBits parts : Nat)

/-- How many survivors of some rounds have their node in a bucket on the side of the next. -/
noncomputable def bucketLoad (round bucket : Nat) : Nat :=
  {edge ∈ survivors endpoint edgeBits round | endpoint edge (round % 2) / 262144 = bucket}.ncard

/-- No bucket of a dense round and none of its dead lists is asked for more slots than it has. -/
def DenseRoundFits (round : Nat) : Prop :=
  DenseFits endpoint edgeBits parts (round % 2) (survivors endpoint edgeBits round)

/-- No bucket of the arena that a round reads is asked for more slots than it has. -/
def ArenaFits (round : Nat) : Prop :=
  ∀ bucket < buckets edgeBits, bucketLoad endpoint edgeBits round bucket ≤
    hybridCapacity edgeBits (survivors endpoint edgeBits 3).ncard

/-- No bucket and no dead list of a run is asked for more slots than it has. The loads are those
    of the exact survivors of each round, so it is a condition on the graph and the number of
    rounds. -/
structure Fits (rounds : Nat) : Prop where
  dense : ∀ round < min rounds 3, DenseRoundFits endpoint edgeBits parts round
  arenas : ∀ round, 3 ≤ round → round < rounds → ArenaFits endpoint edgeBits round

/-- None is before the rounds on arenas. Of the arenas only the one of the hand-over is filled
    by then. -/
structure EarlyFits (rounds : Nat) : Prop where
  dense : ∀ round < min rounds 3, DenseRoundFits endpoint edgeBits parts round
  handOver : 3 < rounds → ArenaFits endpoint edgeBits 3

/-- No dense round asks for so many slots that its counter could wrap: the graph has at most
    thirty-one edge bits, or at most two to the twenty-nine seeds lie beyond the capacities of
    their buckets in each of them. -/
def Unwrapped (rounds : Nat) : Prop :=
  edgeBits ≤ 31 ∨ ∀ round < min rounds 3,
    seedExcess endpoint edgeBits parts (round % 2) (survivors endpoint edgeBits round) ≤ 2 ^ 29

end

section

variable {endpoint : Nat → Nat → Nat} {orders : Orders} {edgeBits parts rounds : Nat}
variable {memory : Device} {contents : Nat → BitVec 32}
variable (sizes : Sizes edgeBits parts)
variable (inGraph : ∀ edge side, endpoint edge side < 2 ^ edgeBits)

/-! ## Dense rounds -/

include sizes inGraph

/-- Some first dense rounds leave no edge without a slot if and only if they fit. -/
theorem dense_kept_iff (count : Nat) :
    (∀ round < count, denseLost endpoint orders edgeBits parts memory contents round = 0) ↔
      ∀ round < count, DenseRoundFits endpoint edgeBits parts round := by
  induction count with
  | zero => simp
  | succ count ih =>
    rw [Nat.forall_lt_succ_right, Nat.forall_lt_succ_right, ← ih]
    refine and_congr_right fun kept => ?_
    obtain ⟨size, nodes_size, live⟩ := @after_dense_spec endpoint orders edgeBits parts memory contents
      sizes inGraph count
    have silent := @dense_round_silent_iff endpoint orders edgeBits parts count sizes inGraph _ size
      nodes_size
    rw [← after_dense_succ, live kept, Nat.and_one_is_mod] at silent
    exact silent

/-- The counter of a dense round after exact ones does not wrap. -/
theorem dense_lost_unwrapped (few : Unwrapped endpoint edgeBits parts rounds) (round : Nat)
    (inside : round < min rounds 3)
    (kept : ∀ earlier < round, denseLost endpoint orders edgeBits parts memory contents earlier = 0) :
    denseLost endpoint orders edgeBits parts memory contents round < 4294967296 := by
  obtain ⟨size, _, live⟩ := @after_dense_spec endpoint orders edgeBits parts memory contents
    sizes inGraph round
  rw [denseLost, after_dense_succ]
  apply dense_round_unwrapped sizes inGraph _ size
  rw [live kept, Nat.and_one_is_mod]
  exact few.imp_right fun bounded => bounded round inside

/-- If the host sees no edge without a slot in the dense rounds, there was none. -/
theorem dense_kept_of_unseen (few : Unwrapped endpoint edgeBits parts rounds)
    (unseen : ∀ round < min rounds 3,
      asU32 (denseLost endpoint orders edgeBits parts memory contents round) = 0) :
    DenseKept endpoint orders edgeBits parts memory contents rounds := by
  intro round
  induction round using Nat.strong_induction_on with
  | _ round ih =>
    intro inside
    have unwrapped := dense_lost_unwrapped sizes inGraph few round inside
      fun earlier before => ih earlier before (Nat.lt_trans before inside)
    have none := unseen round inside
    rwa [asU32, Nat.mod_eq_of_lt unwrapped] at none

/-! ## Hand-over -/

omit sizes inGraph in
/-- The count of live edges is that of the enumerated ones. -/
theorem alive_count_eq (edges : Bitmap) : aliveCount edges = (liveEdges edges).ncard := by
  have enumerated : ∀ first, aliveCount edges = (members first edges).length := by
    induction edges with
    | nil => exact fun _ => rfl
    | cons word rest ih =>
      intro first
      rw [members, List.length_append, List.length_map, ← ih, drain_width, aliveCount, List.map_cons,
        List.sum_cons]
      rfl
  rw [enumerated 0]
  symm
  exact ncard_of_listed ((members_ascending edges 0 (by decide)).imp Nat.ne_of_lt) (mem_live edges)

omit inGraph in
/-- The hand-over sorts no edge twice. -/
theorem hand_over_distinct (startRound capacity : Nat) (edges : Bitmap) :
    ((handOverItems endpoint orders edgeBits parts startRound capacity edges).map Prod.snd).Nodup := by
  rw [handOverItems, List.map_flatMap]
  simp only [seed_items_edges]
  apply nodup_parts _ _ (partOf edgeBits parts) List.nodup_range
  · intro part _
    exact ((orders.handOver part).perm _).nodup_iff.mpr ((alive_edges_ascending
      (source_params_whole sizes startRound capacity part) edges).imp Nat.ne_of_lt)
  · intro part _ edge member
    rw [((orders.handOver part).perm _).mem_iff,
      mem_alive_edges (source_params_whole sizes startRound capacity part)] at member
    exact (in_part_iff sizes 0 part edge).mp member.1

/-- The hand-over of exact live edges counts exactly those beyond the capacities of their buckets,
    and leaves none in the arena twice. -/
theorem hand_over_counts (round capacity : Nat) (edges : Bitmap)
    (size : edges.length = wordCount edgeBits)
    (live : liveEdges edges = survivors endpoint edgeBits round) (memory : Device) :
    (handOver endpoint orders edgeBits parts round capacity edges memory).read .overflow =
        ∑ bucket ∈ Finset.range (buckets edgeBits),
          (bucketLoad endpoint edgeBits round bucket - capacity) ∧
      Distinct .source (buckets edgeBits) capacity
        (handOver endpoint orders edgeBits parts round capacity edges memory) := by
  have not_count : ∀ bucket, Address.count .source bucket ≠ .overflow := nofun
  have inside := hand_over_items_inside orders sizes inGraph round capacity edges
  have unique := @hand_over_distinct endpoint orders edgeBits parts sizes round capacity edges
  have cleared : ∀ bucket < buckets edgeBits, (resetOverflow
      (clearCounts .source (buckets edgeBits) memory)).read (.count .source bucket) = 0 := by
    intro bucket small
    rw [resetOverflow, Memory.read_write_of_ne (not_count bucket)]
    exact (clear_counts_spec .source (buckets edgeBits) memory).2.1 bucket small
  have load : ∀ bucket, (valuesIn bucket
      (handOverItems endpoint orders edgeBits parts round capacity edges)).length =
        bucketLoad endpoint edgeBits round bucket := by
    intro bucket
    symm
    apply ncard_of_listed (unique.sublist (List.filter_sublist.map Prod.snd))
    intro edge
    rw [← live]
    refine (mem_values_in bucket edge _).trans ?_
    rw [mem_hand_over_items orders sizes inGraph round capacity edges size, Nat.and_one_is_mod]
    rfl
  rw [hand_over_fill]
  refine ⟨?_, (fill_distinct .source (buckets edgeBits) capacity _ inside unique _ cleared).1⟩
  rw [fill_lost .source (buckets edgeBits) capacity _ inside _ cleared, resetOverflow,
    Memory.read_write_self, Nat.zero_add]
  exact Finset.sum_congr rfl fun bucket _ => by rw [load]

/-- After exact dense rounds the hand-over leaves no edge without a slot if and only if its
    buckets fit. -/
theorem hand_over_lost_iff
    (kept : ∀ round < 3, denseLost endpoint orders edgeBits parts memory contents round = 0) :
    arenaCapacity endpoint orders edgeBits parts memory contents =
        hybridCapacity edgeBits (survivors endpoint edgeBits 3).ncard ∧
      Distinct .source (buckets edgeBits)
        (arenaCapacity endpoint orders edgeBits parts memory contents)
        (handedOver endpoint orders edgeBits parts memory contents) ∧
      (handOverLost endpoint orders edgeBits parts memory contents = 0 ↔
        ArenaFits endpoint edgeBits 3) := by
  obtain ⟨size, _, live⟩ := @after_dense_spec endpoint orders edgeBits parts memory contents sizes
    inGraph 3
  have capacity : arenaCapacity endpoint orders edgeBits parts memory contents =
      hybridCapacity edgeBits (survivors endpoint edgeBits 3).ncard := by
    rw [arenaCapacity, alive_count_eq, live kept]
  obtain ⟨counts, distinct⟩ := @hand_over_counts endpoint orders edgeBits parts sizes inGraph 3
    (arenaCapacity endpoint orders edgeBits parts memory contents) _ size (live kept)
    (afterDense endpoint orders edgeBits parts memory contents 3).memory
  refine ⟨capacity, distinct, ?_⟩
  rw [handOverLost, handedOver, counts, Finset.sum_eq_zero_iff, capacity]
  simp only [Finset.mem_range, Nat.sub_eq_zero_iff_le]
  rfl

end

/-! ## Rounds on arenas -/

section

variable {endpoint : Nat → Nat → Nat} {orders : Orders} {edgeBits parts : Nat}
variable {startRound capacity round rounds : Nat} {state : State}
variable (wide : 18 < edgeBits) (inGraph : ∀ edge side, endpoint edge side < 2 ^ edgeBits)

include wide inGraph

omit wide inGraph in
/-- What a fused round sorts into a bucket are the survivors that load it in the next round. -/
theorem next_bucket_load {p : EndpointParams} (wide : 18 < p.edgeBits)
    (inGraph : ∀ edge side, endpoint edge side < 2 ^ p.edgeBits) (side : p.side = round % 2)
    (schedule : Schedule) (fromArena : Region) (memory : Device)
    (holds : Holds fromArena (buckets p.edgeBits) p.capacity memory
      (· ∈ survivors endpoint p.edgeBits round) (fun edge => endpoint edge p.side))
    (unique : ((matedItems p endpoint schedule fromArena memory).map Prod.snd).Nodup)
    (bucket : Nat) :
    (valuesIn bucket (matedItems p endpoint schedule fromArena memory)).length =
      bucketLoad endpoint p.edgeBits (round + 1) bucket := by
  have mated := mem_mated_edges wide inGraph schedule fromArena memory holds
  have other_side : (p.side ^^^ 1) &&& 1 = (round + 1) % 2 := by
    have flip : ∀ side < 2, (side ^^^ 1) &&& 1 = 1 - side := by decide
    rw [side, flip _ (Nat.mod_lt _ Nat.two_pos)]
    omega
  symm
  apply ncard_of_listed (unique.sublist (List.filter_sublist.map Prod.snd))
  intro edge
  refine (mem_values_in bucket edge _).trans ?_
  rw [matedItems, keyedItems, mem_keyed, mated, other_side,
    (bucket_of_node wide _ (inGraph edge _)).1, side]
  rfl

/-- A round that is not the last leaves the counter at zero if and only if it was zero and the
    buckets of the next arena fit. It leaves no edge in that arena twice. -/
theorem hybrid_round_silent_iff (started : startRound ≤ round) (not_last : round + 1 ≠ rounds)
    (here : InArena endpoint edgeBits startRound capacity round state)
    (distinct : Distinct (arenaOf startRound round) (buckets edgeBits) capacity state.memory) :
    (Silent (hybridRound endpoint orders edgeBits (sourceParams edgeBits parts startRound capacity 0)
        startRound rounds state round).memory ↔
      Silent state.memory ∧ ∀ bucket < buckets edgeBits,
        bucketLoad endpoint edgeBits (round + 1) bucket ≤ capacity) ∧
      Distinct (arenaOf startRound (round + 1)) (buckets edgeBits) capacity
        (hybridRound endpoint orders edgeBits (sourceParams edgeBits parts startRound capacity 0)
          startRound rounds state round).memory := by
  obtain ⟨bits, side, from_capacity, _, _, different⟩ :=
    arena_params_spec edgeBits parts startRound capacity round started
  rw [hybrid_round_eq wide started not_last]
  obtain ⟨p, p_eq⟩ : ∃ p, p = arenaParams edgeBits parts startRound capacity round := ⟨_, rfl⟩
  obtain ⟨before, before_eq⟩ : ∃ before, before =
    clearCounts (arenaOf startRound (round + 1)) (buckets edgeBits) state.memory := ⟨_, rfl⟩
  obtain ⟨overflow, cleared, arenas⟩ := clear_counts_spec (arenaOf startRound (round + 1))
    (buckets edgeBits) state.memory
  simp only [← p_eq, ← before_eq] at bits side from_capacity overflow cleared arenas ⊢
  subst bits
  have slots : arenaSlots (arenaOf startRound round) capacity before =
      arenaSlots (arenaOf startRound round) capacity state.memory :=
    funext fun bucket => arenas _ different capacity bucket
  have inside := mated_items_inside wide inGraph (orders.fused round) (arenaOf startRound round) before
  have unique : ((matedItems p endpoint (orders.fused round) (arenaOf startRound round)
      before).map Prod.snd).Nodup := by
    apply mated_items_distinct
    rw [Distinct, from_capacity, slots]
    exact distinct
  refine ⟨?_, (fill_distinct _ (buckets p.edgeBits) capacity _ inside unique before cleared).1⟩
  rw [Silent, fill_lost _ (buckets p.edgeBits) capacity _ inside before cleared, overflow,
    Nat.add_eq_zero_iff, Finset.sum_eq_zero_iff]
  simp only [Finset.mem_range, Nat.sub_eq_zero_iff_le]
  refine and_congr_right fun silent => forall₂_congr fun bucket small => ?_
  have holds : Holds (arenaOf startRound round) (buckets p.edgeBits) p.capacity before
      (· ∈ survivors endpoint p.edgeBits round) (fun edge => endpoint edge p.side) := by
    intro bucket small edge
    rw [from_capacity, side, slots]
    exact here.holds silent bucket small edge
  rw [next_bucket_load wide inGraph side (orders.fused round) _ before holds unique]

/-- The rounds on arenas leave the counter at zero if and only if it was zero and the buckets of
    all later arenas fit. -/
theorem hybrid_rounds_silent_iff (room : 0 < capacity) (count : Nat)
    (not_all : startRound + count < rounds)
    (start : InArena endpoint edgeBits startRound capacity startRound state)
    (distinct : Distinct (arenaOf startRound startRound) (buckets edgeBits) capacity state.memory) :
    (Silent ((List.range' startRound count).foldl (hybridRound endpoint orders edgeBits
        (sourceParams edgeBits parts startRound capacity 0) startRound rounds) state).memory ↔
      Silent state.memory ∧ ∀ later < count, ∀ bucket < buckets edgeBits,
        bucketLoad endpoint edgeBits (startRound + later + 1) bucket ≤ capacity) ∧
      Distinct (arenaOf startRound (startRound + count)) (buckets edgeBits) capacity
        ((List.range' startRound count).foldl (hybridRound endpoint orders edgeBits
          (sourceParams edgeBits parts startRound capacity 0) startRound rounds) state).memory := by
  induction count with
  | zero => simpa using distinct
  | succ count ih =>
    obtain ⟨silent, unique⟩ := ih (by omega)
    have here : InArena endpoint edgeBits startRound capacity (startRound + count)
        ((List.range' startRound count).foldl (hybridRound endpoint orders edgeBits
          (sourceParams edgeBits parts startRound capacity 0) startRound rounds) state) :=
      hybrid_rounds_fused wide inGraph room count (by omega) start
    obtain ⟨next, next_unique⟩ := @hybrid_round_silent_iff endpoint orders edgeBits parts startRound
      capacity (startRound + count) rounds _ wide inGraph (Nat.le_add_right _ _) (by omega) here unique
    rw [List.range'_1_concat, List.foldl_append, List.foldl_cons, List.foldl_nil]
    refine ⟨?_, next_unique⟩
    rw [next, silent, Nat.forall_lt_succ_right, and_assoc]

end

/-! ## Whole runs -/

section

variable {endpoint : Nat → Nat → Nat} {orders : Orders} {edgeBits parts rounds : Nat}
variable {memory : Device} {contents : Nat → BitVec 32}
variable (sizes : Sizes edgeBits parts)
variable (inGraph : ∀ edge side, endpoint edge side < 2 ^ edgeBits)

include sizes inGraph

/-- After an exact hand-over the rounds on arenas leave no edge without a slot if and only if the
    buckets of all later arenas fit. -/
theorem arenas_lost_iff (many : 3 < rounds)
    (kept : ∀ round < 3, denseLost endpoint orders edgeBits parts memory contents round = 0)
    (none_lost : handOverLost endpoint orders edgeBits parts memory contents = 0) :
    arenasLost endpoint orders edgeBits parts memory contents rounds = 0 ↔
      ∀ round, 3 < round → round < rounds → ArenaFits endpoint edgeBits round := by
  obtain ⟨count, counted⟩ : ∃ count, rounds - 3 = count + 1 := ⟨rounds - 4, by omega⟩
  obtain ⟨capacity, distinct, _⟩ := @hand_over_lost_iff endpoint orders edgeBits parts memory contents
    sizes inGraph kept
  have start := (@before_arenas_spec endpoint orders edgeBits parts memory contents sizes
    inGraph).2 none_lost kept
  have room := @arena_capacity_positive endpoint orders edgeBits parts memory contents
  have start_distinct : Distinct (arenaOf 3 3) (buckets edgeBits)
      (arenaCapacity endpoint orders edgeBits parts memory contents)
      (beforeArenas endpoint orders edgeBits parts memory contents).memory := by
    rw [Distinct, beforeArenas, reset_overflow_slots]
    exact distinct
  have silent := (@hybrid_rounds_silent_iff endpoint orders edgeBits parts 3 _ rounds _ sizes.wide
    inGraph room count (by omega) start start_distinct).1
  have fused : InArena endpoint edgeBits 3
      (arenaCapacity endpoint orders edgeBits parts memory contents) (3 + count)
      ((List.range' 3 count).foldl (hybridRound endpoint orders edgeBits (sourceParams edgeBits parts 3
        (arenaCapacity endpoint orders edgeBits parts memory contents) 0) 3 rounds)
        (beforeArenas endpoint orders edgeBits parts memory contents)) :=
    hybrid_rounds_fused sizes.wide inGraph room count (by omega) start
  have reset : Silent (beforeArenas endpoint orders edgeBits parts memory contents).memory :=
    Memory.read_write_self _ _ _
  have last := (@hybrid_round_last endpoint orders edgeBits parts 3 _ (3 + count) rounds _ sizes.wide
    inGraph (Nat.le_add_right 3 count) (by omega) fused).1
  rw [arenasLost, afterArenas, counted, List.range'_1_concat, List.foldl_append, List.foldl_cons,
    List.foldl_nil, last]
  refine silent.trans ?_
  rw [and_iff_right reset, capacity]
  constructor
  · intro fits round later before bucket small
    have load := fits (round - 4) (by omega) bucket small
    rwa [show 3 + (round - 4) + 1 = round by omega] at load
  · intro fits later before bucket small
    exact fits (3 + later + 1) (by omega) (by omega) bucket small

/-- A run leaves some edge without a slot if and only if its graph does not fit. -/
theorem overflowed_iff :
    Overflowed endpoint orders edgeBits parts memory contents rounds ↔
      ¬ Fits endpoint edgeBits parts rounds := by
  have dense := @dense_kept_iff endpoint orders edgeBits parts memory contents sizes inGraph
    (min rounds 3)
  rw [iff_not_comm]
  constructor
  · intro fits
    have kept := dense.mpr fits.dense
    rintro (⟨round, inside, lost⟩ | ⟨many, lost⟩)
    · exact lost (kept round inside)
    · rw [Nat.min_eq_right (Nat.le_of_lt many)] at kept
      have handed := (@hand_over_lost_iff endpoint orders edgeBits parts memory contents sizes inGraph
        kept).2.2.mpr (fits.arenas 3 (Nat.le_refl _) many)
      have arenas := (arenas_lost_iff sizes inGraph many kept handed).mpr
        fun round later before => fits.arenas round (Nat.le_of_lt later) before
      exact lost.elim (· handed) (· arenas)
  · intro none
    have kept : ∀ round < min rounds 3,
        denseLost endpoint orders edgeBits parts memory contents round = 0 := by
      intro round inside
      by_contra lost
      exact none (Or.inl ⟨round, inside, lost⟩)
    refine ⟨dense.mp kept, fun round later before => ?_⟩
    have many : 3 < rounds := Nat.lt_of_le_of_lt later before
    rw [Nat.min_eq_right (Nat.le_of_lt many)] at kept
    have handed : handOverLost endpoint orders edgeBits parts memory contents = 0 := by
      by_contra lost
      exact none (Or.inr ⟨many, Or.inl lost⟩)
    have arenas : arenasLost endpoint orders edgeBits parts memory contents rounds = 0 := by
      by_contra lost
      exact none (Or.inr ⟨many, Or.inr lost⟩)
    rcases Nat.eq_or_lt_of_le later with rfl | later
    · exact (hand_over_lost_iff sizes inGraph kept).2.2.mp handed
    · exact (arenas_lost_iff sizes inGraph many kept handed).mp arenas round later before

/-- A graph that fits before the rounds on arenas is not refused there. -/
theorem not_refused_of_fits (fits : EarlyFits endpoint edgeBits parts rounds) :
    DenseKept endpoint orders edgeBits parts memory contents rounds ∧
      ¬ RefusedEarly endpoint orders edgeBits parts memory contents rounds := by
  have kept := (@dense_kept_iff endpoint orders edgeBits parts memory contents sizes inGraph
    (min rounds 3)).mpr fits.dense
  refine ⟨kept, ?_⟩
  rintro (⟨round, inside, seen⟩ | ⟨many, lost⟩)
  · rw [kept round inside] at seen
    exact seen rfl
  · rw [Nat.min_eq_right (Nat.le_of_lt many)] at kept
    exact lost ((hand_over_lost_iff sizes inGraph kept).2.2.mpr (fits.handOver many))

/-- A graph that does not fit before the rounds on arenas is refused there, unless a counter
    wraps. -/
theorem refused_of_not_fits (few : Unwrapped endpoint edgeBits parts rounds)
    (tight : ¬ EarlyFits endpoint edgeBits parts rounds) :
    RefusedEarly endpoint orders edgeBits parts memory contents rounds := by
  by_contra early
  have unseen : ∀ round < min rounds 3,
      asU32 (denseLost endpoint orders edgeBits parts memory contents round) = 0 := by
    intro round inside
    by_contra seen
    exact early (Or.inl ⟨round, inside, seen⟩)
  have kept := dense_kept_of_unseen sizes inGraph few unseen
  refine tight ⟨(dense_kept_iff sizes inGraph _).mp kept, fun many => ?_⟩
  rw [DenseKept, Nat.min_eq_right (Nat.le_of_lt many)] at kept
  refine (hand_over_lost_iff sizes inGraph kept).2.2.mp ?_
  by_contra lost
  exact early (Or.inr ⟨many, lost⟩)

end

end CuckatooMiner.Metal
