import Mathlib
import CuckatooMiner.PeelCore
import CuckatooMiner.Foundation.CheckedElimination

/-!
# Peeling with stored group numbers

`peel_two_core` over an arbitrary graph, with its counts checked, and with the numbers
of groups as the source stores them: `group_keys.len() as u32` in the tables of edges
and mates and in the worklist. Its length check bounds the survivors, not the groups,
of which there can be twice as many.

While the stored numbers are the numbers themselves, peeling leaves the positions of
the greatest set of survivors that support each other, whatever their order and with
any repetitions. Beyond that, groups of side one are taken for groups of side zero.
-/

namespace CuckatooMiner.PeelExact

open SipHash Verify Solver Pruning TwoCore Peel PeelCore

/-- A number of a group as it is stored. -/
def asU32 (number : Nat) : Nat := number % 4294967296

/-- The groups of survivors at the given nodes of both sides. -/
def groupNodes (zero one : List Nat) : Groups :=
  let zeroSide := groupSide zero 0
  ⟨zeroSide, groupSide one zeroSide.keys.length⟩

/-- The tables that the worklist reads, as they are stored. -/
def storedIncidence (groups : Groups) : Elimination.Incidence :=
  { groups := fun edge => (groups.incidence.groups edge).map asU32
    members := groups.incidence.members
    mate := fun group => (groups.incidence.mate group).map asU32 }

/-- Before the first turn the lonely groups are in the worklist, as they are stored. -/
def storedInitial (groups : Groups) (items : Nat) : Elimination.State :=
  let state := Elimination.initial (storedIncidence groups) items groups.liveCount
  { state with queue := state.queue.map asU32 }

/-- The edges that peeling leaves, the groups it took from the worklist in their order,
    and those that are still in it. -/
structure Peeled where
  edges : List Nat
  taken : List Nat
  waiting : List Nat
deriving DecidableEq, Repr

/-- Remove the edges without a living mate until none is left, unless a count drops below zero.
    Numbers of groups are stored in thirty-two bits as in the source, so two groups may share a
    number where there are more; nothing is assumed of the survivors. -/
def peelTwoCore (node : Nat → Nat → Nat) (survivors : List Nat) :
    Option (Except SolveError Peeled) :=
  if u32Max < survivors.length then
    some (.error (.unsupported "2-core survivor index exceeds u32"))
  else if survivors.isEmpty then some (.ok ⟨[], [], []⟩)
  else
    let groups := groupNodes (survivors.map (node · 0)) (survivors.map (node · 1))
    (Elimination.checkedDrain (storedIncidence groups) groups.liveCount.length
      (storedInitial groups survivors.length)).map fun drained =>
        .ok ⟨((survivors.zip drained.2.alive).filter (·.2)).map Prod.fst, drained.1,
          drained.2.queue⟩

/-- Every position of a set has on each side a position of the set with the
    complementary node. -/
def SelfSupporting (node : Nat → Nat → Nat) (survivors : List Nat) (chosen : Set Nat) : Prop :=
  ∀ i ∈ chosen, i < survivors.length ∧ ∀ side < 2, ∃ j ∈ chosen,
    node (survivors.getD j 0) side = node (survivors.getD i 0) side ^^^ 1

/-- No count drops below zero, the worklist ends empty, no group is taken from it twice,
    and the survivors at the positions of the greatest self-supporting set are left. -/
def PeelsToCore (node : Nat → Nat → Nat) (survivors : List Nat) : Prop :=
  ∃ positions taken : List Nat, peelTwoCore node survivors =
      some (.ok ⟨positions.map fun i => survivors.getD i 0, taken, []⟩) ∧
    taken.Nodup ∧ positions.Pairwise (· < ·) ∧
    IsGreatest {chosen | SelfSupporting node survivors chosen} {i | i ∈ positions}

/-- The number of different nodes of the survivors on a side. -/
def nodeCount (node : Nat → Nat → Nat) (survivors : List Nat) (side : Nat) : Nat :=
  (survivors.map (node · side)).toFinset.card

/-! ## Stored numbers of few groups -/

/-- Small numbers are stored as they are. -/
theorem as_u32_eq (number : Nat) (small : number < 4294967296) : asU32 number = number :=
  Nat.mod_eq_of_lt small

/-- A side has a group for each of its nodes. -/
theorem run_count (keys : List Nat) (small : ∀ key ∈ keys, key < 2 ^ 32) :
    (runsOf keys).length = keys.toFinset.card := by
  have unique : ((runsOf keys).map (runKey keys)).Nodup :=
    (run_keys_ascending keys small).imp Nat.ne_of_lt
  have same : ((runsOf keys).map (runKey keys)).toFinset = keys.toFinset := by
    apply Finset.ext
    intro key
    rw [List.mem_toFinset, List.mem_toFinset, List.mem_map]
    constructor
    · rintro ⟨run, run_member, rfl⟩
      obtain ⟨i, inside⟩ := List.exists_mem_of_ne_nil run (List.ne_nil_of_mem_splitBy run_member)
      have bound := (mem_runs_flatten keys i).mp (List.mem_flatten.mpr ⟨run, run_member, inside⟩)
      rw [← run_key_eq keys run run_member i inside, List.getD_eq_getElem _ _ bound]
      exact List.getElem_mem bound
    · intro member
      obtain ⟨i, bound, rfl⟩ := List.getElem_of_mem member
      obtain ⟨run, run_member, inside⟩ := List.mem_flatten.mp ((mem_runs_flatten keys i).mpr bound)
      refine ⟨run, run_member, ?_⟩
      rw [← run_key_eq keys run run_member i inside, List.getD_eq_getElem _ _ bound]
  rw [← same, List.toFinset_card_of_nodup unique, List.length_map]

variable (request : GraphParams) (survivors : List Nat)

/-- There are as many groups as different nodes on both sides. -/
theorem group_count (inRange : request.edgeBits ≤ 32) :
    (groupSurvivors request survivors).count =
      nodeCount (endpoint request.keys request.edgeBits) survivors 0 +
        nodeCount (endpoint request.keys request.edgeBits) survivors 1 := by
  have zero := congrArg List.length (grouped_zero request survivors).nodes
  have one := congrArg List.length (grouped_one request survivors).nodes
  rw [List.length_map, run_count _ (side_keys_small request survivors inRange 0)] at zero
  rw [List.length_map, run_count _ (side_keys_small request survivors inRange 1)] at one
  rw [Groups.count, zero, one]
  rfl

/-- The tables have a mate entry for every group and no other. -/
theorem mate_inside (inRange : request.edgeBits ≤ 32) (group mate : Nat)
    (mated : (groupSurvivors request survivors).incidence.mate group = some mate) :
    mate < (groupSurvivors request survivors).count := by
  have length : (groupSurvivors request survivors).mateGroups.length =
      (groupSurvivors request survivors).count := by
    simp [Groups.mateGroups, Groups.middle, Groups.count]
  have bound : group < (groupSurvivors request survivors).count := by
    by_contra outside
    simp only [Groups.incidence] at mated
    rw [List.getD_eq_default _ _ (by omega)] at mated
    cases mated
  exact ((survivors_wellFormed request survivors inRange).mates group bound mate mated).1

/-- While all group numbers fit, the stored tables are the tables. -/
theorem stored_incidence_eq (inRange : request.edgeBits ≤ 32)
    (fits : (groupSurvivors request survivors).count ≤ 4294967296) :
    storedIncidence (groupSurvivors request survivors) =
      (groupSurvivors request survivors).incidence := by
  have groups_eq : ∀ edge,
      ((groupSurvivors request survivors).incidence.groups edge).map asU32 =
        (groupSurvivors request survivors).incidence.groups edge := by
    intro edge
    apply List.map_congr_left (g := id) _ |>.trans (List.map_id _)
    intro group member
    apply as_u32_eq
    rcases Nat.lt_or_ge edge survivors.length with inside | outside
    · exact Nat.lt_of_lt_of_le ((survivors_wellFormed request survivors inRange).inside edge inside
        group member) fits
    · have zero_length := (grouped_zero request survivors).length
      have one_length := (grouped_one request survivors).length
      rw [sideKeys, List.length_map] at zero_length one_length
      simp only [Groups.incidence] at member
      rw [List.getD_eq_default _ _ (by omega), List.getD_eq_default _ _ (by omega)] at member
      simp at member
      omega
  have mate_eq : ∀ group,
      ((groupSurvivors request survivors).incidence.mate group).map asU32 =
        (groupSurvivors request survivors).incidence.mate group := by
    intro group
    cases mated : (groupSurvivors request survivors).incidence.mate group with
    | none => rfl
    | some mate =>
      rw [Option.map_some, as_u32_eq _
        (Nat.lt_of_lt_of_le (mate_inside request survivors inRange group mate mated) fits)]
  rw [storedIncidence, funext groups_eq, funext mate_eq]

/-- While all group numbers fit, the stored worklist is the worklist. -/
theorem stored_initial_eq (inRange : request.edgeBits ≤ 32)
    (fits : (groupSurvivors request survivors).count ≤ 4294967296) :
    storedInitial (groupSurvivors request survivors) survivors.length =
      Elimination.initial (groupSurvivors request survivors).incidence survivors.length
        (groupSurvivors request survivors).liveCount := by
  have length := (live_count_spec request survivors).1
  rw [storedInitial, stored_incidence_eq request survivors inRange fits]
  have queue_eq : (Elimination.initial (groupSurvivors request survivors).incidence
      survivors.length (groupSurvivors request survivors).liveCount).queue.map asU32 =
      (Elimination.initial (groupSurvivors request survivors).incidence
        survivors.length (groupSurvivors request survivors).liveCount).queue := by
    apply List.map_congr_left (g := id) _ |>.trans (List.map_id _)
    intro group member
    have bound := List.mem_range.mp (List.mem_filter.mp member).1
    exact as_u32_eq _ (by omega)
  simp only [queue_eq]

/-! ## Peeling leaves the greatest self-supporting set -/

/-- The edges kept by their marks are those at the marked positions. -/
theorem kept_positions (edges : List Nat) (alive : List Bool) :
    ((edges.zip alive).filter (·.2)).map Prod.fst =
      ((List.range edges.length).filter fun i => alive.getD i false).map
        fun i => edges.getD i 0 := by
  induction edges generalizing alive with
  | nil => simp
  | cons edge rest ih =>
    cases alive with
    | nil => simp
    | cons mark marks =>
      have shifted := ih marks
      rw [List.length_cons, List.range_succ_eq_map, List.filter_cons, List.filter_map]
      cases mark with
      | true => simpa [Function.comp_def] using shifted
      | false => simpa [Function.comp_def] using shifted

/-- A set of survivors supports itself in the tables exactly when it does in the graph. -/
theorem self_supporting_iff (inRange : request.edgeBits ≤ 32) (chosen : Set Nat) :
    Elimination.Supported (groupSurvivors request survivors).incidence survivors.length
        (· ∈ chosen) ↔
      SelfSupporting (endpoint request.keys request.edgeBits) survivors chosen :=
  supported_iff request survivors inRange (· ∈ chosen)

/-- The marks that peeling leaves when all group numbers fit. -/
def marksLeft : List Bool :=
  (Elimination.drain (groupSurvivors request survivors).incidence
    (groupSurvivors request survivors).count (Elimination.initial
      (groupSurvivors request survivors).incidence survivors.length
      (groupSurvivors request survivors).liveCount)).alive

/-- While all group numbers fit, no count drops below zero, no group is taken twice, the
    worklist ends empty, and the marked positions are the greatest self-supporting set. -/
theorem stored_drain (inRange : request.edgeBits ≤ 32) (few : survivors.length ≤ u32Max)
    (fits : (groupSurvivors request survivors).count ≤ 4294967296)
    (nonempty : ¬ survivors.isEmpty = true) :
    ∃ taken, peelTwoCore (endpoint request.keys request.edgeBits) survivors =
        some (.ok ⟨((survivors.zip (marksLeft request survivors)).filter (·.2)).map Prod.fst,
          taken, []⟩) ∧
      taken.Nodup ∧
      IsGreatest {chosen | SelfSupporting (endpoint request.keys request.edgeBits) survivors chosen}
        {i | i < survivors.length ∧ (marksLeft request survivors).getD i false = true} := by
  have same : groupNodes (survivors.map (endpoint request.keys request.edgeBits · 0))
      (survivors.map (endpoint request.keys request.edgeBits · 1)) =
      groupSurvivors request survivors := rfl
  obtain ⟨count, counted⟩ := live_count_spec request survivors
  obtain ⟨taken, drained, ended, different, greatest⟩ :=
    Elimination.checked_drain_initial (survivors_wellFormed request survivors inRange) _ count
      counted
  refine ⟨taken, ?_, different, ?_⟩
  · rw [peelTwoCore, if_neg (Nat.not_lt.mpr few), if_neg nonempty]
    simp only [same, stored_incidence_eq request survivors inRange fits,
      stored_initial_eq request survivors inRange fits, count, drained, Option.map_some, ended,
      marksLeft]
  · simpa only [self_supporting_iff request survivors inRange, marksLeft] using greatest

/-- While all group numbers fit, peeling leaves the greatest self-supporting set. -/
theorem peels_to_core (inRange : request.edgeBits ≤ 32) (few : survivors.length ≤ u32Max)
    (fits : (groupSurvivors request survivors).count ≤ 4294967296) :
    PeelsToCore (endpoint request.keys request.edgeBits) survivors := by
  by_cases empty : survivors.isEmpty = true
  · obtain rfl := List.isEmpty_iff.mp empty
    refine ⟨[], [], rfl, List.nodup_nil, List.Pairwise.nil, ?_, ?_⟩
    · intro i member
      cases member
    · intro chosen supporting i member
      exact absurd (supporting i member).1 (Nat.not_lt_zero i)
  · obtain ⟨taken, peeled, different, greatest⟩ :=
      stored_drain request survivors inRange few fits empty
    refine ⟨(List.range survivors.length).filter fun i =>
      (marksLeft request survivors).getD i false, taken, ?_, different,
      List.pairwise_lt_range.filter _, ?_⟩
    · rw [peeled, kept_positions]
    · have members : {i | i ∈ (List.range survivors.length).filter
          fun i => (marksLeft request survivors).getD i false} =
          {i | i < survivors.length ∧ (marksLeft request survivors).getD i false = true} := by
        apply Set.ext
        intro i
        simp only [Set.mem_ofPred_eq, List.mem_filter, List.mem_range]
      rw [members]
      exact greatest

/-! ## Consequences of leaving the greatest set -/

variable {node : Nat → Nat → Nat} {survivors}

/-- Part of the survivors has at most as many nodes. -/
theorem node_count_mono {edges : List Nat} (inside : edges ⊆ survivors) (side : Nat) :
    nodeCount node edges side ≤ nodeCount node survivors side := by
  apply Finset.card_le_card
  intro key member
  rw [List.mem_toFinset] at member ⊢
  exact List.map_subset _ inside member

/-- What the greatest set leaves supports itself, so nothing more is peeled from it. -/
theorem peel_again {positions edges : List Nat}
    (greatest : IsGreatest {chosen | SelfSupporting node survivors chosen} {i | i ∈ positions})
    (left : edges = positions.map fun i => survivors.getD i 0)
    (again : PeelsToCore node edges) :
    ∃ taken, peelTwoCore node edges = some (.ok ⟨edges, taken, []⟩) := by
  obtain ⟨others, taken, peeled, _, ascending, largest⟩ := again
  have whole : SelfSupporting node edges {i | i < edges.length} := by
    intro i inside
    refine ⟨inside, fun side sided => ?_⟩
    have place : i < positions.length := by simpa [left] using inside
    obtain ⟨_, mates⟩ := greatest.1 positions[i] (List.getElem_mem place)
    obtain ⟨j, j_member, mated⟩ := mates side sided
    obtain ⟨k, k_place, rfl⟩ := List.getElem_of_mem j_member
    refine ⟨k, by simpa [left] using k_place, ?_⟩
    simpa [left, k_place, place] using mated
  have all : others = List.range edges.length := by
    apply List.Pairwise.eq_of_mem_iff ascending List.pairwise_lt_range
    intro i
    rw [List.mem_range]
    exact ⟨fun member => (largest.1 i member).1, fun inside => largest.2 whole inside⟩
  refine ⟨taken, ?_⟩
  rw [peeled, all]
  congr 3
  apply List.ext_getElem
  · simp
  · intro i _ inside
    simp [inside]

/-- Edges that support each other and are all survivors are left. -/
theorem supporting_edges_left {positions : List Nat} {edges : Set Nat}
    (greatest : IsGreatest {chosen | SelfSupporting node survivors chosen} {i | i ∈ positions})
    (inside : ∀ edge ∈ edges, edge ∈ survivors)
    (supporting : Stable (fun side e f => node f side = node e side ^^^ 1) edges) (edge : Nat)
    (member : edge ∈ edges) : edge ∈ positions.map fun i => survivors.getD i 0 := by
  have indexed : ∀ e ∈ edges, ∃ i < survivors.length, survivors.getD i 0 = e := by
    intro e chosen
    obtain ⟨i, bound, rfl⟩ := List.getElem_of_mem (inside e chosen)
    exact ⟨i, bound, List.getD_eq_getElem _ _ bound⟩
  have places : SelfSupporting node survivors
      {i | i < survivors.length ∧ survivors.getD i 0 ∈ edges} := by
    rintro i ⟨bound, chosen⟩
    refine ⟨bound, fun side sided => ?_⟩
    obtain ⟨f, f_chosen, mated⟩ := supporting _ chosen side sided
    obtain ⟨j, j_bound, rfl⟩ := indexed f f_chosen
    exact ⟨j, ⟨j_bound, f_chosen⟩, mated⟩
  obtain ⟨i, bound, rfl⟩ := indexed edge member
  exact List.mem_map.mpr ⟨i, greatest.2 places ⟨bound, member⟩, rfl⟩

/-- The edges that are left support each other. -/
theorem left_edges_stable {positions : List Nat}
    (supporting : SelfSupporting node survivors {i | i ∈ positions}) :
    Stable (fun side e f => node f side = node e side ^^^ 1)
      (edgeSet (positions.map fun i => survivors.getD i 0)) := by
  intro edge member side sided
  obtain ⟨i, i_member, rfl⟩ := List.mem_map.mp ((mem_edge_set _ _).mp member)
  obtain ⟨_, mates⟩ := supporting i i_member
  obtain ⟨j, j_member, mated⟩ := mates side sided
  exact ⟨_, (mem_edge_set _ _).mpr (List.mem_map.mpr ⟨j, j_member, rfl⟩), mated⟩

/-- They are survivors, in the order of these. -/
theorem left_edges_sublist {positions : List Nat} (ascending : positions.Pairwise (· < ·))
    (supporting : SelfSupporting node survivors {i | i ∈ positions}) :
    (positions.map fun i => survivors.getD i 0).Sublist survivors := by
  have within : positions ⊆ List.range survivors.length :=
    fun i member => List.mem_range.mpr (supporting i member).1
  have places : positions.Sublist (List.range survivors.length) :=
    List.sublist_of_subperm_of_pairwise (List.subperm_of_subset (ascending.imp Nat.ne_of_lt) within)
      ascending List.pairwise_lt_range
  have all : (List.range survivors.length).map (fun i => survivors.getD i 0) = survivors := by
    apply List.ext_getElem
    · simp
    · intro i _ inside
      simp [inside]
  have left := places.map fun i => survivors.getD i 0
  rwa [all] at left

/-- Few survivors, or a graph of up to thirty-one edge bits, have few groups. -/
theorem few_groups (inRange : request.edgeBits ≤ 32)
    (small : request.edgeBits ≤ 31 ∨ survivors.length ≤ 2147483648) :
    nodeCount (endpoint request.keys request.edgeBits) survivors 0 +
      nodeCount (endpoint request.keys request.edgeBits) survivors 1 ≤ 4294967296 := by
  rcases small with small | small
  · rw [← group_count request survivors inRange]
    exact group_count_fits request survivors small
  · have side_bound : ∀ side, nodeCount (endpoint request.keys request.edgeBits) survivors side ≤
        survivors.length := by
      intro side
      have card := List.toFinset_card_le
        (survivors.map (endpoint request.keys request.edgeBits · side))
      rwa [List.length_map] at card
    have zero := side_bound 0
    have one := side_bound 1
    omega

/-- Survivors with at most two to the thirty-two nodes on both sides together are peeled
    exactly: no count drops below zero, every group is taken from the worklist at most once and
    the worklist ends, and the survivors at the positions of the greatest self-supporting set
    are left in their order. Peeling again leaves the same list, and every edge of every proof
    among the survivors is left. In larger sets the stored numbers of groups are truncated, and
    nothing is promised. -/
theorem peel_exact_of_few_groups (request : GraphParams) (survivors : List Nat)
    (inRange : 1 ≤ request.edgeBits ∧ request.edgeBits ≤ 32) (few : survivors.length ≤ u32Max)
    (fits : nodeCount (endpoint request.keys request.edgeBits) survivors 0 +
      nodeCount (endpoint request.keys request.edgeBits) survivors 1 ≤ 4294967296) :
    PeelsToCore (endpoint request.keys request.edgeBits) survivors ∧
    ∃ edges taken, peelTwoCore (endpoint request.keys request.edgeBits) survivors =
        some (.ok ⟨edges, taken, []⟩) ∧
      (∃ again, peelTwoCore (endpoint request.keys request.edgeBits) edges =
        some (.ok ⟨edges, again, []⟩)) ∧
      ∀ cycleLength proof, 1 ≤ cycleLength →
        verifyCycle request.keys request.edgeBits cycleLength proof = .ok () →
        proof.nonces ⊆ survivors → proof.nonces ⊆ edges := by
  have core := peels_to_core request survivors inRange.2 few
    (by rwa [group_count request survivors inRange.2])
  refine ⟨core, ?_⟩
  obtain ⟨positions, taken, peeled, _, ascending, greatest⟩ := core
  refine ⟨_, taken, peeled, ?_, ?_⟩
  · have sublist := left_edges_sublist ascending greatest.1
    refine peel_again greatest rfl (peels_to_core request _ inRange.2 ?_ ?_)
    · exact sublist.length_le.trans few
    · rw [group_count request _ inRange.2]
      have fewer : ∀ side, nodeCount (endpoint request.keys request.edgeBits) _ side ≤
          nodeCount (endpoint request.keys request.edgeBits) survivors side :=
        node_count_mono sublist.subset
      have zero := fewer 0
      have one := fewer 1
      omega
  · intro cycleLength proof positive accepted inside edge member
    have cycle := (verify_cycle_iff _ _ _ _ inRange positive).mp accepted
    have included : ∀ edge ∈ edgeSet proof.nonces, edge ∈ survivors := inside
    exact supporting_edges_left greatest included (cycle_stable cycle) edge member

/-- Peeling the cycle of a sixteen-edge graph, out of order and one edge given twice. -/
theorem peel_exact_four_cycle :
    PeelsToCore (endpoint ⟨24#64, 0#64, 0#64, 0#64⟩ 4) [15, 0, 6, 9, 0] :=
  (peel_exact_of_few_groups ⟨⟨24#64, 0#64, 0#64, 0#64⟩, 4, 4, 20⟩ [15, 0, 6, 9, 0] (by decide)
    (by decide) (by decide +kernel)).1

/-! ## More groups than stored numbers -/

/-- In a list of its own indices every index is a run. -/
theorem runs_range (size : Nat) (small : size ≤ 2 ^ 32) :
    runsOf (List.range size) = (List.range size).map fun i => [i] := by
  have read : ∀ i < size, (List.range size).getD i 0 = i := fun i inside => by
    rw [List.getD_eq_getElem _ _ (by simpa using inside), List.getElem_range]
  have order : RadixOrder.radixOrder (List.range size) = List.range size := by
    have perm := RadixOrder.radix_order_perm (List.range size)
    have sorted := RadixOrder.radix_order_sorted (List.range size) fun key member => by
      have bound := List.mem_range.mp member
      omega
    rw [List.length_range] at perm
    have antisymmetric : ∀ a b, a ∈ RadixOrder.radixOrder (List.range size) →
        b ∈ List.range size → a ≤ b → b ≤ a → a = b :=
      fun _ _ _ _ forward back => Nat.le_antisymm forward back
    apply List.Perm.eq_of_pairwise antisymmetric _ _ perm
    · refine List.Pairwise.imp_of_mem ?_ sorted
      intro left right left_member right_member ordered
      have left_bound := List.mem_range.mp (perm.mem_iff.mp left_member)
      have right_bound := List.mem_range.mp (perm.mem_iff.mp right_member)
      rwa [read left left_bound, read right right_bound] at ordered
    · exact List.pairwise_lt_range.imp Nat.le_of_lt
  rw [runsOf, order, List.splitBy_eq_iff]
  refine ⟨?_, ?_, ?_, ?_⟩
  · rw [← List.flatMap_def, List.flatMap_singleton']
  · simp
  · intro run member
    obtain ⟨i, _, rfl⟩ := List.mem_map.mp member
    exact List.isChain_singleton i
  · rw [List.isChain_map, List.isChain_iff_getElem]
    intro i inside
    rw [List.length_range] at inside
    refine ⟨List.cons_ne_nil _ _, List.cons_ne_nil _ _, ?_⟩
    simp only [List.getElem_range, List.getLast_singleton, List.head_cons, read i (by omega),
      read (i + 1) inside]
    simp

/-- The groups of survivors that are their own nodes on both sides. -/
def identityGroups (size : Nat) : Groups := groupNodes (List.range size) (List.range size)

/-- The tables of one side of such survivors. -/
theorem identity_side (size first : Nat) (small : size ≤ 2 ^ 32) :
    Grouped (List.range size) first ((List.range size).map fun i => [i])
        (groupSide (List.range size) first) ∧
      (groupSide (List.range size) first).keys = List.range size := by
  have grouped := group_side_grouped (List.range size) first
  rw [runs_range size small] at grouped
  refine ⟨grouped, ?_⟩
  rw [grouped.nodes, List.map_map]
  apply List.map_congr_left (g := id) _ |>.trans (List.map_id _)
  intro i member
  simp only [Function.comp_apply, runKey, List.headD_cons, id_eq]
  rw [List.getD_eq_getElem _ _ (by simpa using member), List.getElem_range]

variable {size : Nat} (small : size ≤ 2 ^ 32)
include small

/-- Side zero of such survivors. -/
theorem identity_zero : (identityGroups size).zero.keys = List.range size :=
  (identity_side size 0 small).2

/-- Side one of such survivors, numbered after side zero. -/
theorem identity_one : (identityGroups size).one = groupSide (List.range size) size := by
  have length := congrArg List.length (identity_side size 0 small).2
  rw [List.length_range] at length
  rw [identityGroups, groupNodes, length]

/-- Where side one starts, and how many groups there are. -/
theorem identity_counts :
    (identityGroups size).middle = size ∧ (identityGroups size).count = size + size := by
  rw [Groups.count, Groups.middle, identity_zero small, identity_one small,
    (identity_side size size small).2, List.length_range]
  exact ⟨rfl, rfl⟩

/-- A survivor is in the groups of its own number on both sides. -/
theorem identity_groups (edge : Nat) (inside : edge < size) :
    (identityGroups size).incidence.groups edge = [edge, size + edge] := by
  have place : ∀ i < size, ∃ bound : i < ((List.range size).map fun i => [i]).length,
      i ∈ ((List.range size).map fun i => [i])[i] := fun i bound =>
    ⟨by simpa using bound, by simp⟩
  obtain ⟨bound, member⟩ := place edge inside
  have zero := (identity_side size 0 small).1.group edge bound edge member
  have one := (identity_side size size small).1.group edge bound edge member
  rw [Nat.zero_add] at zero
  simp only [Groups.incidence, identity_one small]
  rw [one]
  exact congrArg (fun number => [number, size + edge]) zero

/-- A group of side zero has one member, of its own number. -/
theorem identity_members (group : Nat) (inside : group < size) :
    (identityGroups size).members group = [group] := by
  rw [Groups.members, (identity_counts small).1, if_neg (Nat.not_le.mpr inside),
    if_neg (Nat.not_le.mpr inside)]
  have cut := (identity_side size 0 small).1.slice group (by simpa using inside)
  rw [List.getElem_map, List.getElem_range] at cut
  exact cut

/-- Every group counts one member. -/
theorem identity_live :
    (identityGroups size).liveCount.length = size + size ∧
      ∀ group < size + size, (identityGroups size).liveCount.getD group 0 = 1 := by
  have all : (identityGroups size).liveCount = List.replicate (size + size) 1 := by
    have zero : groupSizes (identityGroups size).zero.offsets =
        ((List.range size).map fun i => [i]).map List.length :=
      (identity_side size 0 small).1.sizes
    have ones : ((List.range size).map fun i => [i]).map List.length = List.replicate size 1 := by
      rw [List.map_map]
      simp [Function.comp_def]
    rw [Groups.liveCount, zero, identity_one small, (identity_side size size small).1.sizes, ones,
      List.replicate_append_replicate]
  rw [all]
  refine ⟨List.length_replicate, fun group inside => ?_⟩
  rw [List.getD_eq_getElem _ _ (by simpa using inside), List.getElem_replicate]

/-- The mates are the groups of the complementary numbers on the same side. -/
theorem identity_mate (group mate : Nat) (inside : group < size + size) :
    (identityGroups size).incidence.mate group = some mate ↔
      (mate < size + size ∧ (mate < size ↔ group < size)) ∧
        mate - (if mate < size then 0 else size) =
          (group - if group < size then 0 else size) ^^^ 1 := by
  obtain ⟨middle, count⟩ := identity_counts small
  have ascending : Ascending (identityGroups size) := by
    constructor
    · rw [identity_zero small]
      exact List.pairwise_lt_range
    · rw [identity_one small, (identity_side size size small).2]
      exact List.pairwise_lt_range
  have key : ∀ other < size + size, groupKey (identityGroups size) other =
      other - if other < size then 0 else size := by
    intro other bound
    split
    · rename_i low
      rw [group_key_zero _ _ (by rwa [middle]), identity_zero small,
        List.getD_eq_getElem _ _ (by simpa using low), List.getElem_range, Nat.sub_zero]
    · rename_i high
      rw [group_key_one _ _ (by rw [middle]; omega), middle, identity_one small,
        (identity_side size size small).2, List.getD_eq_getElem _ _ (by simp; omega),
        List.getElem_range]
  rw [incidence_mate _ ascending group mate (by rwa [count]), middle, count]
  refine and_congr_right fun bounds => ?_
  rw [key mate bounds.1, key group inside]

omit small

/-- Among all but the last of the 32-bit numbers only the last lacks its complement. -/
theorem identity_lonely (full : size = 4294967295) (group : Nat) (inside : group < size + size) :
    Elimination.lonely (storedIncidence (identityGroups size)) (identityGroups size).liveCount
        group = true ↔ group = size - 1 ∨ group = size + size - 1 := by
  have small : size ≤ 2 ^ 32 := by omega
  have mated := fun mate => identity_mate small group mate inside
  -- The complement on the same side, unless the group is the last of its side.
  have partner : ¬ (group = size - 1 ∨ group = size + size - 1) →
      ∃ mate < size + size, (identityGroups size).incidence.mate group = some mate := by
    intro other
    rcases Nat.lt_or_ge group size with low | high
    · simp only [if_pos low, Nat.sub_zero] at mated
      rcases Nat.mod_two_eq_zero_or_one group with even | odd
      · rw [complement_even _ even] at mated
        refine ⟨group + 1, by omega, (mated _).mpr ⟨by omega, ?_⟩⟩
        rw [if_pos (by omega), Nat.sub_zero]
      · rw [complement_odd _ odd] at mated
        refine ⟨group - 1, by omega, (mated _).mpr ⟨by omega, ?_⟩⟩
        rw [if_pos (by omega), Nat.sub_zero]
    · simp only [if_neg (Nat.not_lt.mpr high)] at mated
      rcases Nat.mod_two_eq_zero_or_one (group - size) with even | odd
      · rw [complement_even _ even] at mated
        refine ⟨group + 1, by omega, (mated _).mpr ⟨by omega, ?_⟩⟩
        rw [if_neg (by omega)]
        omega
      · rw [complement_odd _ odd] at mated
        refine ⟨group - 1, by omega, (mated _).mpr ⟨by omega, ?_⟩⟩
        rw [if_neg (by omega)]
        omega
  unfold Elimination.lonely storedIncidence
  constructor
  · intro alone
    by_contra other
    obtain ⟨mate, bound, mate_eq⟩ := partner other
    simp only [mate_eq, Option.map_some, beq_iff_eq] at alone
    rw [(identity_live small).2 _ (by unfold asU32; omega)] at alone
    cases alone
  · intro last
    have none_left : (identityGroups size).incidence.mate group = none := by
      rw [Option.eq_none_iff_forall_not_mem]
      intro mate mate_eq
      obtain ⟨⟨bound, same_side⟩, key⟩ := (mated mate).mp mate_eq
      have even : (group - if group < size then 0 else size) % 2 = 0 := by
        split <;> omega
      rw [complement_even _ even] at key
      split at key <;> split at key <;> omega
    simp only [none_left, Option.map_none]

/-- The worklist of such survivors starts with the last groups of both sides, and the
    second is stored as another number. -/
theorem identity_initial_queue (full : size = 4294967295) :
    (storedInitial (identityGroups size) size).queue = [size - 1, size - 2] := by
  have small : size ≤ 2 ^ 32 := by omega
  have lonely := identity_lonely full
  have groups : (List.range (size + size)).filter (Elimination.lonely
      (storedIncidence (identityGroups size)) (identityGroups size).liveCount) =
      [size - 1, size + size - 1] := by
    apply List.Pairwise.eq_of_mem_iff (r := (· < ·)) (List.pairwise_lt_range.filter _)
    · simp
      omega
    · intro group
      simp only [List.mem_filter, List.mem_range, List.mem_cons, List.not_mem_nil, or_false]
      constructor
      · rintro ⟨inside, alone⟩
        exact (lonely group inside).mp alone
      · intro last
        have inside : group < size + size := by omega
        exact ⟨inside, (lonely group inside).mpr last⟩
  simp only [storedInitial, Elimination.initial, (identity_live small).1, groups, List.map_cons,
    List.map_nil]
  simp only [asU32, List.cons.injEq, and_true]
  omega

/-- A lost member is counted down, changes no item and may queue one more group. -/
theorem drop_member_effect (incidence : Elimination.Incidence) (state : Elimination.State)
    (group : Nat) :
    (Elimination.dropMember incidence state group).liveCount =
        state.liveCount.modify group (· - 1) ∧
      (Elimination.dropMember incidence state group).alive = state.alive ∧
      ∃ more, (Elimination.dropMember incidence state group).queue = state.queue ++ more := by
  unfold Elimination.dropMember
  simp only
  split
  · split
    · exact ⟨rfl, rfl, [], by simp⟩
    · rename_i mate _
      unfold Elimination.enqueue
      split
      · exact ⟨rfl, rfl, [], by simp⟩
      · exact ⟨rfl, rfl, [mate], rfl⟩
  · exact ⟨rfl, rfl, [], by simp⟩

/-- Taking the last group of side zero from the worklist counts down its own group, and
    the one before it, whose member still lives. -/
theorem identity_first_turn (full : size = 4294967295) (start : Elimination.State)
    (start_live : start.liveCount = (identityGroups size).liveCount)
    (start_alive : start.alive = List.replicate size true) :
    ∃ next more, Elimination.checkedProcess (storedIncidence (identityGroups size))
        { start with queue := [size - 2] } (size - 1) = some next ∧
      next.queue = (size - 2) :: more ∧ next.alive.getD (size - 2) false = true ∧
      next.liveCount.getD (size - 2) 0 = 0 := by
  have small : size ≤ 2 ^ 32 := by omega
  obtain ⟨live_length, live⟩ := identity_live small
  have alive : ∀ item < size, (List.replicate size true).getD item false = true := by
    intro item inside
    rw [List.getD_eq_getElem _ _ (by simpa using inside), List.getElem_replicate]
  have members : (storedIncidence (identityGroups size)).members (size - 1) = [size - 1] :=
    identity_members small (size - 1) (by omega)
  -- The number of the last group of side one is cut off to that of another group.
  have groups : (storedIncidence (identityGroups size)).groups (size - 1) =
      [size - 1, size - 2] := by
    simp only [storedIncidence, identity_groups small (size - 1) (by omega), List.map_cons,
      List.map_nil, asU32, List.cons.injEq, and_true]
    omega
  rw [Elimination.checkedProcess, members, List.foldlM_cons, Elimination.checkedKill, start_alive,
    if_pos (alive _ (by omega)), groups, List.foldlM_cons, Elimination.checkedDrop, start_live,
    live _ (by omega), if_neg Nat.one_ne_zero]
  obtain ⟨one_live, one_alive, one_more, one_queue⟩ :=
    drop_member_effect (storedIncidence (identityGroups size))
      ⟨(List.replicate size true).set (size - 1) false, (identityGroups size).liveCount,
        start.queued, [size - 2]⟩ (size - 1)
  generalize Elimination.dropMember (storedIncidence (identityGroups size))
    ⟨(List.replicate size true).set (size - 1) false, (identityGroups size).liveCount,
      start.queued, [size - 2]⟩ (size - 1) = one at one_live one_alive one_queue ⊢
  simp only at one_live one_alive one_queue
  obtain ⟨two_live, two_alive, two_more, two_queue⟩ :=
    drop_member_effect (storedIncidence (identityGroups size)) one (size - 2)
  have counted : one.liveCount.getD (size - 2) 0 = 1 := by
    rw [one_live, Elimination.getD_decrease _ _ _ (by omega), live _ (by omega),
      if_neg (by omega)]
  refine ⟨Elimination.dropMember (storedIncidence (identityGroups size)) one (size - 2),
    one_more ++ two_more, ?_, ?_, ?_, ?_⟩
  · simp only [Option.bind_eq_bind, Option.bind_some, List.foldlM_cons, List.foldlM_nil,
      Elimination.checkedDrop, counted, if_neg Nat.one_ne_zero]
    rfl
  · rw [two_queue, one_queue]
    simp
  · rw [two_alive, one_alive, Elimination.getD_set _ _ _ _ (by simp; omega),
      if_neg (by omega)]
    exact alive _ (by omega)
  · rw [two_live, Elimination.getD_decrease _ _ _ (by rw [one_live]; simp; omega), counted,
      if_pos rfl]

/-- Taking the group before it from the worklist then counts below zero. -/
theorem identity_second_turn (full : size = 4294967295) (next : Elimination.State)
    (more : List Nat) (alive : next.alive.getD (size - 2) false = true)
    (live : next.liveCount.getD (size - 2) 0 = 0) :
    Elimination.checkedProcess (storedIncidence (identityGroups size))
      { next with queue := more } (size - 2) = none := by
  have small : size ≤ 2 ^ 32 := by omega
  have members : (storedIncidence (identityGroups size)).members (size - 2) = [size - 2] :=
    identity_members small (size - 2) (by omega)
  have groups : (storedIncidence (identityGroups size)).groups (size - 2) =
      [size - 2, asU32 (size + (size - 2))] := by
    simp only [storedIncidence, identity_groups small (size - 2) (by omega), List.map_cons,
      List.map_nil, as_u32_eq (size - 2) (by omega)]
  rw [Elimination.checkedProcess, members, List.foldlM_cons, Elimination.checkedKill,
    if_pos alive, groups, List.foldlM_cons, Elimination.checkedDrop, if_pos live]
  rfl

/-- Survivors that are their own nodes are not peeled when there are too many groups. -/
theorem identity_underflow (full : size = 4294967295) :
    peelTwoCore (fun edge _ => edge) (List.range size) = none := by
  have nonempty : ¬ (List.range size).isEmpty = true := by
    rw [List.isEmpty_iff, List.range_eq_nil]
    omega
  rw [peelTwoCore, if_neg (by rw [List.length_range, full]; exact Nat.lt_irrefl _),
    if_neg nonempty]
  simp only [List.map_id', List.length_range]
  rw [← identityGroups, (identity_live (by omega)).1, Option.map_eq_none_iff]
  obtain ⟨next, more, taken, queue, alive, live⟩ :=
    identity_first_turn full (storedInitial (identityGroups size) size) rfl rfl
  obtain ⟨turns, two⟩ : ∃ turns, size + size = turns + 1 + 1 := ⟨size + size - 2, by omega⟩
  rw [two, Elimination.checkedDrain, identity_initial_queue full]
  simp only [taken, Option.bind_some]
  rw [Elimination.checkedDrain, queue]
  simp only [identity_second_turn full next more alive live, Option.bind_none, Option.map_none]

/-- Among the first edges of a graph of thirty-two edge bits in which every edge is its
    own node on both sides, all but the last, a count drops below zero. -/
theorem identity_not_peeled :
    ¬ PeelsToCore (fun edge _ => edge) (List.range 4294967295) := by
  rintro ⟨positions, taken, peeled, _⟩
  rw [identity_underflow rfl] at peeled
  cases peeled

end CuckatooMiner.PeelExact
