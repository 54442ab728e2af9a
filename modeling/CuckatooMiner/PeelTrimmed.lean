import Mathlib
import CuckatooMiner.PeelExact
import CuckatooMiner.Foundation.Outcome

/-!
# Peeling what a trim leaves

Rounds of trimming keep the core of the graph, so peeling after any number of them leaves that
core, in the order of the survivors. The peeler is the one with stored numbers of groups: it is
exact while the survivors have at most two to the thirty-two nodes on both sides together.

Graphs of up to thirty-one edge bits have no more nodes than that. In graphs of thirty-two edge
bits the bound is assumed where it is used. It cannot be derived for every key, since nothing is
known here about the nodes that SipHash gives; more rounds never leave more nodes, so it holds of
every later round of a graph where it holds once.
-/

namespace CuckatooMiner.PeelTrimmed

open SipHash Verify Solver Pruning TwoCore CpuTrim Peel PeelCore PeelExact
open Outcome (Gives gives_error gives_ok)

/-- The nodes on a side of the edges that some rounds leave. -/
def nodesLeft (keys : SipKeys) (edgeBits rounds side : Nat) : Set Nat :=
  (endpoint keys edgeBits · side) '' trimRounds (Complementary keys edgeBits) (graph edgeBits) rounds

/-- The groups of the edges that some rounds leave, one for each node of either side, have numbers
    of thirty-two bits. This is a condition on the graph and the number of rounds only, and it
    says nothing about the number of edges, which the peeler checks by itself. -/
def Numbered (keys : SipKeys) (edgeBits rounds : Nat) : Prop :=
  (nodesLeft keys edgeBits rounds 0).ncard + (nodesLeft keys edgeBits rounds 1).ncard ≤ 4294967296

section Nodes

variable {keys : SipKeys} {edgeBits rounds : Nat}

/-- All nodes are nodes of the graph. -/
theorem nodes_left_subset (inRange : edgeBits ≤ 32) (side : Nat) :
    nodesLeft keys edgeBits rounds side ⊆ Set.Iio (2 ^ edgeBits) := by
  rintro node ⟨edge, _, rfl⟩
  exact endpoint_lt keys edgeBits edge side inRange

/-- There are finitely many nodes. -/
theorem nodes_left_finite (inRange : edgeBits ≤ 32) (side : Nat) :
    (nodesLeft keys edgeBits rounds side).Finite :=
  (Set.finite_Iio _).subset (nodes_left_subset inRange side)

/-- In graphs of up to thirty-one edge bits all groups are numbered. -/
theorem numbered_of_small (small : edgeBits ≤ 31) : Numbered keys edgeBits rounds := by
  have side_bound (side : Nat) : (nodesLeft keys edgeBits rounds side).ncard ≤ 2 ^ edgeBits := by
    have inside : nodesLeft keys edgeBits rounds side ⊆ Set.Iio (2 ^ edgeBits) :=
      nodes_left_subset (by omega) side
    have bound := Set.ncard_le_ncard inside (Set.finite_Iio _)
    rwa [Set.ncard_Iio_nat] at bound
  have power : 2 ^ edgeBits ≤ 2 ^ 31 := Nat.pow_le_pow_right (by decide) small
  have zero := side_bound 0
  have one := side_bound 1
  unfold Numbered
  omega

/-- More rounds leave no more nodes. -/
theorem Numbered.later {fewer : Nat} (numbered : Numbered keys edgeBits fewer)
    (inRange : edgeBits ≤ 32) (more : fewer ≤ rounds) : Numbered keys edgeBits rounds := by
  have side_bound (side : Nat) : (nodesLeft keys edgeBits rounds side).ncard ≤
      (nodesLeft keys edgeBits fewer side).ncard :=
    Set.ncard_le_ncard (Set.image_mono (trim_rounds_antitone fewer rounds more))
      (nodes_left_finite inRange side)
  have zero := side_bound 0
  have one := side_bound 1
  unfold Numbered at numbered ⊢
  omega

/-- A list of the edges that are left has the nodes that are left. -/
theorem node_count_listed {survivors : List Nat} (side : Nat)
    (members : ∀ edge, edge ∈ survivors ↔
      edge ∈ trimRounds (Complementary keys edgeBits) (graph edgeBits) rounds) :
    nodeCount (endpoint keys edgeBits) survivors side = (nodesLeft keys edgeBits rounds side).ncard := by
  rw [nodeCount, ← Set.ncard_coe_finset]
  congr 1
  apply Set.ext
  intro node
  simp only [Finset.mem_coe, List.mem_toFinset, List.mem_map, members]
  rfl

end Nodes

section Survivors

variable (request : GraphParams) {survivors : List Nat}

/-- Survivors with few enough nodes are peeled to their core, in their order. -/
theorem peel_leaves_core (inRange : request.edgeBits ≤ 32) (few : survivors.length ≤ u32Max)
    (fits : nodeCount (endpoint request.keys request.edgeBits) survivors 0 +
      nodeCount (endpoint request.keys request.edgeBits) survivors 1 ≤ 4294967296) :
    ∃ peeled taken, peelTwoCore (endpoint request.keys request.edgeBits) survivors =
        some (.ok ⟨peeled, taken, []⟩) ∧ peeled.Sublist survivors ∧
      ∀ edge, edge ∈ peeled ↔
        edge ∈ core (Complementary request.keys request.edgeBits) (edgeSet survivors) := by
  obtain ⟨positions, taken, returned, _, ascending, greatest⟩ :=
    peels_to_core request survivors inRange few (by rwa [group_count request survivors inRange])
  have sublist := left_edges_sublist ascending greatest.1
  have stable : Stable (Complementary request.keys request.edgeBits)
      (edgeSet (positions.map fun i => survivors.getD i 0)) := left_edges_stable greatest.1
  have contains : core (Complementary request.keys request.edgeBits) (edgeSet survivors) ⊆
      edgeSet (positions.map fun i => survivors.getD i 0) := by
    intro edge in_core
    exact (mem_edge_set _ _).mpr (supporting_edges_left greatest
      (fun e member => (mem_edge_set _ _).mp (core_subset member)) core_stable edge in_core)
  have inside : edgeSet (positions.map fun i => survivors.getD i 0) ⊆ edgeSet survivors :=
    fun e member => (mem_edge_set _ _).mpr (sublist.subset ((mem_edge_set _ _).mp member))
  refine ⟨_, taken, returned, sublist, fun edge => ?_⟩
  rw [← stable_between_is_core inside contains stable, mem_edge_set]

/-- What some rounds leave is peeled to the core of the graph, in its order. -/
theorem peel_after_rounds {rounds : Nat} (inRange : request.edgeBits ≤ 32)
    (members : ∀ edge, edge ∈ survivors ↔ edge ∈
      trimRounds (Complementary request.keys request.edgeBits) (graph request.edgeBits) rounds)
    (few : survivors.length ≤ u32Max) (numbered : Numbered request.keys request.edgeBits rounds) :
    ∃ peeled taken, peelTwoCore (endpoint request.keys request.edgeBits) survivors =
        some (.ok ⟨peeled, taken, []⟩) ∧ peeled.Sublist survivors ∧
      ∀ edge, edge ∈ peeled ↔ edge ∈ twoCore request.keys request.edgeBits := by
  have fits : nodeCount (endpoint request.keys request.edgeBits) survivors 0 +
      nodeCount (endpoint request.keys request.edgeBits) survivors 1 ≤ 4294967296 := by
    rw [node_count_listed 0 members, node_count_listed 1 members]
    exact numbered
  have same : edgeSet survivors =
      trimRounds (Complementary request.keys request.edgeBits) (graph request.edgeBits) rounds :=
    Set.ext members
  obtain ⟨peeled, taken, returned, sublist, left⟩ := peel_leaves_core request inRange few fits
  refine ⟨peeled, taken, returned, sublist, fun edge => ?_⟩
  rw [left, same, core_trim_rounds, twoCore]

end Survivors

/-- Survivors that can be peeled: few enough to be numbered, with few enough groups. -/
def Peelable (request : GraphParams) (survivors : List Nat) : Prop :=
  survivors.length ≤ u32Max ∧
    nodeCount (endpoint request.keys request.edgeBits) survivors 0 +
      nodeCount (endpoint request.keys request.edgeBits) survivors 1 ≤ 4294967296

/-- Peeling the survivors of a trim returns the core of the graph, in ascending order. -/
theorem peel_trimmed (request : GraphParams) (survivors : List Nat) (maxEdgeBits : Nat)
    (cancel : Nat → Bool) (inRange : request.edgeBits ≤ 32)
    (trimmed : trimSurvivorsCancellable request maxEdgeBits cancel = .ok (some survivors))
    (peelable : request.edgeBits ≤ 31 ∨ Peelable request survivors) :
    ∃ peeled taken, peelTwoCore (endpoint request.keys request.edgeBits) survivors =
        some (.ok ⟨peeled, taken, []⟩) ∧ peeled.Pairwise (· < ·) ∧
      ∀ edge, edge ∈ peeled ↔ edge ∈ twoCore request.keys request.edgeBits := by
  obtain ⟨ascending, same, few_of_small⟩ :=
    trimmed_core request survivors maxEdgeBits cancel inRange trimmed
  have few : survivors.length ≤ u32Max := peelable.elim few_of_small And.left
  have fits : nodeCount (endpoint request.keys request.edgeBits) survivors 0 +
      nodeCount (endpoint request.keys request.edgeBits) survivors 1 ≤ 4294967296 :=
    peelable.elim (fun small => few_groups request inRange (Or.inl small)) And.right
  obtain ⟨peeled, taken, returned, sublist, members⟩ := peel_leaves_core request inRange few fits
  exact ⟨peeled, taken, returned, ascending.sublist sublist, fun edge => by rw [members, same]⟩

/-- Trimming for any number of rounds and peeling returns, in ascending order, the greatest set of
    edges of the graph in which every edge has a mate on both sides. It is the same for every
    number of rounds and holds every edge of every proof that verifies. In a graph of up to
    thirty-one edge bits, which is all that the trim is asked for, nothing is assumed; in one of
    thirty-two edge bits the survivors must be few enough to be peeled, and the peeler refuses
    more of them than 32 bits can count. -/
theorem peel_of_trim_is_core (request : GraphParams) (maxEdgeBits : Nat) (cancel : Nat → Bool)
    (survivors : List Nat) (inRange : 1 ≤ request.edgeBits ∧ request.edgeBits ≤ 32)
    (trimmed : trimSurvivorsCancellable request maxEdgeBits cancel = .ok (some survivors)) :
    (u32Max < survivors.length → request.edgeBits = 32 ∧
      peelTwoCore (endpoint request.keys request.edgeBits) survivors =
        some (.error (.unsupported "2-core survivor index exceeds u32"))) ∧
    (request.edgeBits ≤ 31 ∨ Peelable request survivors →
      ∃ peeled taken, peelTwoCore (endpoint request.keys request.edgeBits) survivors =
          some (.ok ⟨peeled, taken, []⟩) ∧
        peeled.Pairwise (· < ·) ∧
        (edgeSet peeled ⊆ graph request.edgeBits ∧
          Stable (Complementary request.keys request.edgeBits) (edgeSet peeled) ∧
          ∀ part ⊆ graph request.edgeBits,
            Stable (Complementary request.keys request.edgeBits) part → part ⊆ edgeSet peeled) ∧
        (∀ rounds others, trimSurvivorsCancellable { request with rounds := rounds } maxEdgeBits
            cancel = .ok (some others) → (request.edgeBits ≤ 31 ∨ Peelable request others) →
          ∃ late_taken, peelTwoCore (endpoint request.keys request.edgeBits) others =
            some (.ok ⟨peeled, late_taken, []⟩)) ∧
        ∀ cycleLength proof, 1 ≤ cycleLength →
          verifyCycle request.keys request.edgeBits cycleLength proof = .ok () →
          proof.nonces ⊆ peeled) := by
  constructor
  · intro many
    obtain ⟨_, _, few⟩ := trimmed_core request survivors maxEdgeBits cancel inRange.2 trimmed
    refine ⟨?_, by rw [peelTwoCore, if_pos many]⟩
    by_contra different
    have count := few (by omega)
    omega
  · intro peelable
    obtain ⟨peeled, taken, returned, ascending, members⟩ :=
      peel_trimmed request survivors maxEdgeBits cancel inRange.2 trimmed peelable
    have same : edgeSet peeled = twoCore request.keys request.edgeBits := Set.ext members
    refine ⟨peeled, taken, returned, ascending, ?_, ?_, ?_⟩
    · rw [same]
      exact ⟨core_subset, core_stable, fun part inside stable => core_greatest inside stable⟩
    · intro rounds others other_trimmed other_peelable
      obtain ⟨other_peeled, other_taken, other_returned, other_ascending, other_members⟩ :=
        peel_trimmed { request with rounds := rounds } others maxEdgeBits cancel inRange.2
          other_trimmed other_peelable
      refine ⟨other_taken, ?_⟩
      rw [other_returned, List.Pairwise.eq_of_mem_iff other_ascending ascending
        fun edge => (other_members edge).trans (members edge).symm]
    · intro cycleLength proof positive accepted edge member
      have cycle := (verify_cycle_iff _ _ _ _ inRange positive).mp accepted
      exact (members edge).mpr (cycle_in_core cycle edge member)

/-- Twenty rounds on a sixteen-edge graph and peeling leave its only cycle. -/
theorem peel_of_trim_four_cycle :
    ∃ peeled taken, peelTwoCore (endpoint ⟨24#64, 0#64, 0#64, 0#64⟩ 4) [0, 6, 9, 15] =
        some (.ok ⟨peeled, taken, []⟩) ∧
      peeled.Pairwise (· < ·) ∧ [0, 6, 9, 15] ⊆ peeled := by
  have trimmed : trimSurvivorsCancellable ⟨⟨24#64, 0#64, 0#64, 0#64⟩, 4, 4, 20⟩ 28
      (fun _ => false) = .ok (some [0, 6, 9, 15]) := by decide +kernel
  obtain ⟨peeled, taken, returned, ascending, _, _, proofs⟩ :=
    (peel_of_trim_is_core ⟨⟨24#64, 0#64, 0#64, 0#64⟩, 4, 4, 20⟩ 28 (fun _ => false) _
      (by decide) trimmed).2 (Or.inl (by decide))
  exact ⟨peeled, taken, returned, ascending, proofs 4 ⟨[0, 6, 9, 15]⟩ (by decide) (by decide +kernel)⟩

/-! ## Peeling in a solver -/

/-- Peel survivors, with the errors renamed and with a fault of its own for a count that drops
    below zero. There a debug build stops and a release build goes on with a wrapped count. -/
def peel {ε : Type*} (rename : SolveError → ε) (underflow : ε) (request : GraphParams)
    (survivors : List Nat) : Except ε (List Nat) :=
  match peelTwoCore (endpoint request.keys request.edgeBits) survivors with
  | none => .error underflow
  | some (.error error) => .error (rename error)
  | some (.ok peeled) => .ok peeled.edges

/-- A list of the edges of the core, each once. The order is left open, as it follows that of
    the survivors. -/
structure ListsCore (keys : SipKeys) (edgeBits : Nat) (edges : List Nat) : Prop where
  unique : edges.Nodup
  members : ∀ edge, edge ∈ edges ↔ edge ∈ twoCore keys edgeBits

/-- Peeling refuses more survivors than thirty-two bits number. It is the peeler's only error. -/
def TooMany (survivors : Nat) (error : SolveError) : Prop :=
  u32Max < survivors ∧ error = .unsupported "2-core survivor index exceeds u32"

/-- Peeling the survivors of some rounds leaves the core, in few enough edges to be numbered,
    unless they are too many. No count drops below zero. -/
theorem peel_gives {ε : Type} {rename : SolveError → ε} {underflow : ε} {request : GraphParams}
    {rounds : Nat} {survivors : List Nat} (inRange : request.edgeBits ≤ 32)
    (unique : survivors.Nodup)
    (members : ∀ edge, edge ∈ survivors ↔ edge ∈
      trimRounds (Complementary request.keys request.edgeBits) (graph request.edgeBits) rounds)
    (numbered : Numbered request.keys request.edgeBits rounds) :
    Gives (peel rename underflow request survivors)
      (fun peeled => ListsCore request.keys request.edgeBits peeled ∧ peeled.length ≤ u32Max)
      (fun fault => ∃ error, fault = rename error ∧
        TooMany (trimRounds (Complementary request.keys request.edgeBits) (graph request.edgeBits)
          rounds).ncard error) := by
  rw [Segments.ncard_of_listed unique members]
  rcases Nat.lt_or_ge u32Max survivors.length with many | few
  · rw [peel, peelTwoCore, if_pos many]
    exact gives_error ⟨_, rfl, many, rfl⟩
  · obtain ⟨peeled, taken, returned, sublist, left⟩ :=
      peel_after_rounds request inRange members few numbered
    rw [peel, returned]
    exact gives_ok ⟨⟨unique.sublist sublist, left⟩, sublist.length_le.trans few⟩

end CuckatooMiner.PeelTrimmed
