import Mathlib
import CuckatooMiner.TrimRunExact
import CuckatooMiner.BucketedRound
import CuckatooMiner.SleanRound

/-!
# Engines of a trimming run

The kernels of direct, bucketed and slean rounds perform the rounds that a run asks of
them, whatever the order of their threads. Fine arenas can be filled with or without gaps
between their buckets. A set of engines made of direct rounds and such arenas meets all
that a run assumes, so that its results are not about nothing.
-/

namespace CuckatooMiner.TrimRun

open Pruning Segments TwoCore
open Bucketed (groupsForWords words_launch)
open GpuLean (GraphSize inOrder leanTrimRound lean_trim_round_eq live_after_round initEdges
  init_edges_live liveEdges Mates)
open LeanRound (Bitmap)

/-! ## Rounds in the bitmap -/

section Bitmap

variable {endpoints : Nat → Nat → Nat} {edgeBits round side : Nat} {edges : Bitmap}

/-- All edges of the graph are set. -/
theorem all_live (full : round = 0 → liveEdges edges = graph edgeBits) (first : round = 0) (edge : Nat)
    (inGraph : edge < 2 ^ edgeBits) : PackedBits.test edges edge = true := by
  have in_graph : edge ∈ graph edgeBits := inGraph
  rw [← full first] at in_graph
  exact in_graph

/-- The abstract direct round trims. -/
theorem lean_round_trims (positive : 1 ≤ edgeBits)
    (inGraph : ∀ edge, endpoints side edge < 2 ^ edgeBits) (sized : Sized edgeBits edges) :
    Trims endpoints edgeBits side edges
      (LeanRound.leanRound (endpoints side) edgeBits (GraphSize.new edgeBits).wordCount edges) := by
  have covers : 2 ^ edgeBits ≤ (GraphSize.new edgeBits).wordCount * 32 := by
    show 2 ^ edgeBits ≤ (2 ^ edgeBits + 31) / 32 * 32
    omega
  constructor
  · exact LeanRound.lean_round_length.trans sized
  · exact live_after_round positive inGraph _ covers side rfl edges

/-- A direct round, by its kernels. -/
def directRound (endpoints : Nat → Nat → Nat) (edgeBits : Nat)
    (schedules : Nat → GpuLean.RoundSchedule) (round side : Nat) (edges : Bitmap) : Bitmap :=
  let params := GpuLean.Params.new edgeBits
  (leanTrimRound (endpoints side) params (groupsForWords edgeBits) (schedules round)
    ⟨edges, LeanRound.clearNodes (GraphSize.new edgeBits).wordCount⟩).edges

/-- The kernels of a direct round perform it. -/
theorem direct_round_trims (positive : 1 ≤ edgeBits) (inRange : edgeBits ≤ 32)
    (inGraph : ∀ edge, endpoints side edge < 2 ^ edgeBits)
    (schedules : Nat → GpuLean.RoundSchedule) (sized : Sized edgeBits edges) :
    Trims endpoints edgeBits side edges
      (directRound endpoints edgeBits schedules round side edges) := by
  have launch := words_launch positive inRange
  have stored := launch.word_count
  have same := (lean_trim_round_eq launch inGraph (schedules round)
    ⟨edges, LeanRound.clearNodes (GraphSize.new edgeBits).wordCount⟩ (sized.trans stored.symm)
    (List.length_replicate.trans stored.symm)).1
  rw [directRound, same, stored]
  exact lean_round_trims positive inGraph sized

/-- The kernels of a bucketed round perform it. -/
theorem bucketed_round_trims (capacityOf : Nat → Nat → Nat)
    (graph_size : Bucketed.Graph (endpoints side) edgeBits) (schedule : Bucketed.RoundSchedule)
    (buffers : Bucketed.Buffers) (sized : Sized edgeBits buffers.edges)
    (nodes_sized : Sized edgeBits buffers.nodes)
    (full : round = 0 → liveEdges buffers.edges = graph edgeBits) :
    Trims endpoints edgeBits side buffers.edges
      (Bucketed.runBucketRound capacityOf (endpoints side) edgeBits (groupsForWords edgeBits) round
        schedule buffers).2.edges := by
  have positive : 1 ≤ edgeBits := Nat.le_trans (by decide) graph_size.lower
  rw [Bucketed.run_bucket_round_eq graph_size sized nodes_sized (all_live full)]
  exact lean_round_trims positive graph_size.inGraph sized

/-- Both phases of a slean round perform it unless a counter overflowed, and keep a copy of
    the bitmap before it. -/
theorem slean_phases_trim (sizing : Slean.SleanSizing) (orders : Slean.Orders)
    (buffers : Slean.Buffers) (inGraph : ∀ edge, endpoints side edge < 2 ^ sizing.edgeBits)
    (sized : Sized sizing.edgeBits buffers.edges)
    (full : round = 0 → liveEdges buffers.edges = graph sizing.edgeBits) :
    let trimmed := Slean.runSleanTrimPhase sizing (endpoints side) orders (round = 0)
      (Slean.runSleanMarkPhase sizing (endpoints side) orders (round = 0) buffers)
    trimmed.backup = buffers.edges ∧ (Slean.overflowReadback sizing trimmed = 0 →
      Trims endpoints sizing.edgeBits side buffers.edges trimmed.edges) := by
  obtain ⟨_, parts, powers⟩ := sizing.powers
  have fewer := powers.fewer
  have wide := powers.wide
  have all : decide (round = 0) = true → ∀ edge, Slean.partOf sizing edge < sizing.parts →
      PackedBits.test buffers.edges edge = true := by
    intro first edge inside
    rw [Slean.partOf, Nat.div_lt_iff_lt_mul Slean.part_edges_positive, powers.part_count,
      powers.edges, ← pow_add, Nat.add_sub_cancel' (by omega)] at inside
    exact all_live full (of_decide_eq_true first) edge inside
  have marked := Slean.mark_phase_marked orders (round = 0) inGraph all buffers rfl
  have done := Slean.trim_phase_trimmed orders (round = 0) inGraph all sized _ marked
  refine ⟨done.backup, fun none_lost => ⟨done.edge_size, Set.ext fun edge => ?_⟩⟩
  refine (done.live ((Slean.overflow_readback_eq_zero _).mp none_lost) edge).trans ?_
  refine and_congr_right fun live => ⟨fun mated => mated ?_, fun mated _ => mated⟩
  have inside := Slean.part_of_live sized edge live
  omega

/-- The kernels of a slean round perform it on the side of the round. -/
theorem slean_round_trims (sizing : Slean.SleanSizing) (orders : Slean.Orders)
    (buffers : Slean.Buffers) (inGraph : ∀ side edge, endpoints side edge < 2 ^ sizing.edgeBits)
    (positive : 1 ≤ sizing.edgeBits) (sized : Sized sizing.edgeBits buffers.edges)
    (full : round = 0 → liveEdges buffers.edges = graph sizing.edgeBits) :
    Trims endpoints sizing.edgeBits (round % 2) buffers.edges
      (Slean.runSleanDenseRound sizing (fun edge side => endpoints side edge) orders round
        buffers) := by
  have words : (GraphSize.new sizing.edgeBits).wordCount = sizing.wordCount := rfl
  obtain ⟨backup, trimmed⟩ :=
    slean_phases_trim sizing orders buffers (inGraph (round % 2)) sized full
  simp only [Slean.runSleanDenseRound, Nat.and_one_is_mod, Slean.finishBucketRound]
  split
  · rename_i none_lost
    exact trimmed none_lost
  · rw [backup, ← words]
    exact lean_round_trims positive (inGraph (round % 2)) sized

end Bitmap

/-! ## Arenas -/

section Arenas

variable (endpoints : Nat → Nat → Nat) (edgeBits side : Nat)

/-- The edges of a list in one bucket. -/
def inBucket (live : List Nat) (bucket : Nat) : List Nat :=
  live.filter fun edge => decide (fineBucket edgeBits (endpoints side edge) = bucket)

/-- Each bucket with the gap after it. -/
def segments (gap : Nat → Nat) (live : List Nat) : List (List Nat) :=
  (List.range fineBuckets).map fun bucket =>
    inBucket endpoints edgeBits side live bucket ++ List.replicate (gap bucket) 0

/-- An arena of the edges of a list, with a gap after each bucket. -/
def fillArena (gap : Nat → Nat) (live : List Nat) : FineCsrArena :=
  let counts := (List.range fineBuckets).map fun bucket =>
    (inBucket endpoints edgeBits side live bucket).length
  ⟨counts, counts.sum, starts (segments endpoints edgeBits side gap live),
    (segments endpoints edgeBits side gap live).flatten⟩

/-- The edges of a list that have a mate in it. -/
def keepMated (live : List Nat) : List Nat :=
  live.filter fun edge => live.any fun other => decide (endpoints side other = endpoints side edge ^^^ 1)

variable {endpoints edgeBits side}

/-- Keeping the mated edges of a list trims it. -/
theorem mem_keep_mated {live : List Nat} {set : Set Nat} (same : ∀ edge, edge ∈ live ↔ edge ∈ set)
    (edge : Nat) :
    edge ∈ keepMated endpoints side live ↔ edge ∈ trimSide (Mates endpoints) side set := by
  simp only [keepMated, List.mem_filter, List.any_eq_true, decide_eq_true_eq, same]
  rfl

/-- The mated edges of a list are unique if its edges are. -/
theorem nodup_keep_mated {live : List Nat} (unique : live.Nodup) :
    (keepMated endpoints side live).Nodup :=
  unique.filter _

/-- A bucket of a filled arena is that of the list. -/
theorem fill_arena_bucket (gap : Nat → Nat) (live : List Nat) (bucket : Nat)
    (inside : bucket < fineBuckets) :
    (fillArena endpoints edgeBits side gap live).bucket bucket =
      inBucket endpoints edgeBits side live bucket := by
  have length : (segments endpoints edgeBits side gap live).length = fineBuckets := by
    rw [segments, List.length_map, List.length_range]
  have here : bucket < (segments endpoints edgeBits side gap live).length := by
    rw [length]
    exact inside
  have segment : (segments endpoints edgeBits side gap live)[bucket] =
      inBucket endpoints edgeBits side live bucket ++ List.replicate (gap bucket) 0 := by
    simp only [segments, List.getElem_map, List.getElem_range]
  have count : (fillArena endpoints edgeBits side gap live).counts.getD bucket 0 =
      (inBucket endpoints edgeBits side live bucket).length := by
    rw [List.getD_eq_getElem _ _ (by simpa [fillArena] using inside)]
    simp only [fillArena, List.getElem_map, List.getElem_range]
  have whole : (segments endpoints edgeBits side gap live).flatten =
      ((segments endpoints edgeBits side gap live).take bucket).flatten ++
        (inBucket endpoints edgeBits side live bucket ++ (List.replicate (gap bucket) 0 ++
          ((segments endpoints edgeBits side gap live).drop (bucket + 1)).flatten)) := by
    have next := take_succ_flatten (segments endpoints edgeBits side gap live) bucket here
    rw [segment] at next
    rw [← List.append_assoc, ← List.append_assoc, List.append_assoc (List.flatten _), ← next,
      ← List.flatten_append, List.take_append_drop]
  rw [FineCsrArena.bucket, count]
  simp only [fillArena]
  rw [starts_getD _ bucket (Nat.le_of_lt here), whole, List.drop_left, List.take_left]

/-- A filled arena holds the edges of the list. -/
theorem fill_arena_holds (gap : Nat → Nat) {live : List Nat} {set : Set Nat} (unique : live.Nodup)
    (same : ∀ edge, edge ∈ live ↔ edge ∈ set) :
    Holds endpoints edgeBits side set (fillArena endpoints edgeBits side gap live) := by
  constructor
  · simp only [fillArena, List.length_map, List.length_range]
  · simp only [fillArena]
  · intro bucket inside
    rw [fill_arena_bucket gap live bucket inside]
    exact unique.filter _
  · intro bucket inside edge
    rw [fill_arena_bucket gap live bucket inside, inBucket, List.mem_filter, same, decide_eq_true_eq]

/-- An arena that is filled without gaps has none. -/
theorem fill_arena_compact (live : List Nat) :
    Compact (fillArena endpoints edgeBits side (fun _ => 0) live) := by
  have lengths : (segments endpoints edgeBits side (fun _ => 0) live).map List.length =
      (fillArena endpoints edgeBits side (fun _ => 0) live).counts := by
    simp only [segments, fillArena, List.map_map]
    apply List.map_congr_left
    intro bucket _
    simp
  intro bucket inside
  rw [← lengths, ← List.map_take, ← List.length_flatten]
  apply starts_getD
  simp only [segments, List.length_map, List.length_range]
  exact Nat.le_of_lt inside

end Arenas

/-! ## A set of engines -/

/-- Fill an arena anew, with gaps up to a fixed capacity of the buckets. -/
def fillFixed (endpoints : Nat → Nat → Nat) (edgeBits side capacity : Nat) (live : List Nat) :
    Option FineCsrArena :=
  let size bucket := (inBucket endpoints edgeBits side live bucket).length
  if ∀ bucket < fineBuckets, size bucket ≤ capacity then
    some (fillArena endpoints edgeBits side (fun bucket => capacity - size bucket) live)
  else none

/-- It holds the edges of the list, unless a bucket is too small. -/
theorem fill_fixed_holds {endpoints : Nat → Nat → Nat} {edgeBits side capacity : Nat}
    {live : List Nat} {set : Set Nat} {next : FineCsrArena} (unique : live.Nodup)
    (same : ∀ edge, edge ∈ live ↔ edge ∈ set)
    (filled : fillFixed endpoints edgeBits side capacity live = some next) :
    Holds endpoints edgeBits side set next := by
  rw [fillFixed] at filled
  split at filled
  · rw [← Option.some.inj filled]
    exact fill_arena_holds _ unique same
  · cases filled

/-- Engines of direct rounds, and of arenas that are filled anew: with gaps up to a fixed
    capacity, or without. -/
def referenceEngines (endpoints : Nat → Nat → Nat) (edgeBits : Nat) : Engines where
  initializeEdges :=
    let params := GpuLean.Params.new edgeBits
    initEdges params (groupsForWords edgeBits) inOrder
      (LeanRound.clearNodes (GraphSize.new edgeBits).wordCount)
  sleanDenseRound := directRound endpoints edgeBits fun _ => ⟨inOrder, inOrder, inOrder⟩
  bucketRound := directRound endpoints edgeBits fun _ => ⟨inOrder, inOrder, inOrder⟩
  leanRound := directRound endpoints edgeBits fun _ => ⟨inOrder, inOrder, inOrder⟩
  buildFineCsr _ side edges :=
    fillArena endpoints edgeBits side (fun _ => 0) (PackedBits.members 0 edges)
  buildShardedFineSeedAndTrim _ side edges :=
    fillArena endpoints edgeBits (1 - side) (fun _ => 0)
      (keepMated endpoints side (PackedBits.members 0 edges))
  trimFineFixedOnce _ side arena :=
    fillFixed endpoints edgeBits (1 - side) (arena.counts.foldl max 0 + 64)
      (keepMated endpoints side (allBuckets arena))
  trimFineCsrOnce _ side arena :=
    fillArena endpoints edgeBits (1 - side) (fun _ => 0)
      (keepMated endpoints side (allBuckets arena))

/-- They perform the rounds that they are asked for. -/
theorem reference_performs {endpoints : Nat → Nat → Nat} {edgeBits : Nat} (positive : 1 ≤ edgeBits)
    (inRange : edgeBits ≤ 32) (inGraph : ∀ side edge, endpoints side edge < 2 ^ edgeBits) :
    Performs endpoints edgeBits (referenceEngines endpoints edgeBits) := by
  have launch := words_launch positive inRange
  have stored := launch.word_count
  have listed : ∀ edges : Bitmap, (PackedBits.members 0 edges).Nodup :=
    fun edges => (PackedBits.members_ascending edges 0 (by decide)).imp Nat.ne_of_lt
  have direct : ∀ round side edges, Sized edgeBits edges → Trims endpoints edgeBits side edges
      (directRound endpoints edgeBits (fun _ => ⟨inOrder, inOrder, inOrder⟩) round side edges) :=
    fun round side edges sized => direct_round_trims positive inRange (inGraph side) _ sized
  constructor
  · obtain ⟨length, live⟩ := init_edges_live launch inOrder
      (LeanRound.clearNodes (GraphSize.new edgeBits).wordCount) (List.length_replicate.trans stored.symm)
    simp only [referenceEngines]
    exact ⟨length.trans stored, live⟩
  · intro round side edges sized _
    simp only [referenceEngines]
    exact direct round side edges sized
  · intro round side edges sized _
    simp only [referenceEngines]
    exact direct round side edges sized
  · intro round side edges sized
    simp only [referenceEngines]
    exact direct round side edges sized
  · intro round side edges _
    exact ⟨fill_arena_holds _ (listed edges) (LeanRound.mem_live edges), fill_arena_compact _⟩
  · intro round side edges _ _
    exact ⟨fill_arena_holds _ (nodup_keep_mated (listed edges)) (mem_keep_mated (LeanRound.mem_live edges)),
      fill_arena_compact _⟩
  · intro round side live arena next _ _ holds fixed
    obtain ⟨unique, members⟩ := all_buckets_spec inGraph holds
    simp only [referenceEngines] at fixed
    exact fill_fixed_holds (nodup_keep_mated unique) (mem_keep_mated members) fixed
  · intro round side live arena _ _ holds
    obtain ⟨unique, members⟩ := all_buckets_spec inGraph holds
    exact ⟨fill_arena_holds _ (nodup_keep_mated unique) (mem_keep_mated members), fill_arena_compact _⟩

/-- Five rounds over the smallest graph with fine rounds, on the bucketed path. -/
theorem trim_exact_bucketed :
    TrimExact (fun _ edge => edge % 2 ^ 24) (referenceEngines (fun _ edge => edge % 2 ^ 24) 24) 24 5
      false ⟨true, false⟩ := by
  have inGraph : ∀ _ edge : Nat, edge % 2 ^ 24 < 2 ^ 24 := fun _ edge =>
    Nat.mod_lt edge (Nat.two_pow_pos 24)
  exact (trim_exact_iff (reference_performs (by decide) (by decide) inGraph) inGraph (by decide)).mpr
    (Or.inl ⟨by decide, rfl⟩)

/-- With as many rounds as can be asked for, a run over a small graph does not return. -/
theorem trim_starts_over :
    Performs (fun _ _ => 0) 1 (referenceEngines (fun _ _ => 0) 1) ∧
      ¬ TrimExact (fun _ _ => 0) (referenceEngines (fun _ _ => 0) 1) 1 4294967295 false
        ⟨true, true⟩ := by
  constructor
  · exact reference_performs (by decide) (by decide) fun _ _ => by decide
  · rintro ⟨turns, listed, device, returned, _⟩
    exact run_rounds_endless rfl rfl rfl rfl (by decide) turns rfl (by decide) _ returned

end CuckatooMiner.TrimRun
