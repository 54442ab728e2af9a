import Mathlib
import CuckatooMiner.MetalFits
import CuckatooMiner.SipHash

/-!
# Native Metal trimming is exact or refuses

Whatever the keys and the order of the threads, a run returns the exact survivors or the
error of a search limit, with two exceptions. With more than 4294967283 rounds a run that
is not refused early does not return. And a dense round of the largest graph can leave as
many edges without a slot as its counter has values, which the host does not see.

When a run is refused is a fact about the loads of the graph's buckets. The second exception
needs a graph of thirty-two edge bits of which an eighth of the edges lie beyond the
capacities of their buckets. It is excluded by a bound on the loads, not described: which
edges a round keeps after an overflow depends on the order of the threads.
-/

namespace CuckatooMiner.Metal

open Pruning Reservation Segments TwoCore
open GpuLean (Mates)

/-! ## A graph that is not refused -/

/-- Nodes of nineteen bits, the last of which is flipped in every other quarter of a part. -/
def evenGraph (edge _side : Nat) : Nat :=
  edge % 262144 + (edge / 262144 + edge / 131072) % 2 * 262144

/-- The nodes of the graph. -/
theorem even_graph_inside (edge side : Nat) : evenGraph edge side < 2 ^ 19 := by
  rw [evenGraph]
  omega

/-- The bucket of an edge. -/
theorem even_graph_bucket (edge side : Nat) :
    evenGraph edge side / 262144 = (edge / 262144 + edge / 131072) % 2 := by
  rw [evenGraph]
  omega

/-- Every edge has a mate on both sides. -/
theorem even_graph_mated (side edge : Nat) (small : edge < 2 ^ 19) :
    ∃ other < 2 ^ 19, evenGraph other side = evenGraph edge side ^^^ 1 := by
  have node_even : evenGraph edge side % 2 = edge % 2 := by
    rw [evenGraph]
    omega
  rcases Nat.mod_two_eq_zero_or_one edge with zero | one
  · refine ⟨edge + 1, by omega, ?_⟩
    rw [SipHash.complement_even _ (node_even.trans zero)]
    simp only [evenGraph]
    omega
  · refine ⟨edge - 1, by omega, ?_⟩
    rw [SipHash.complement_odd _ (node_even.trans one)]
    simp only [evenGraph]
    omega

/-- No round removes an edge. -/
theorem even_graph_survivors (round : Nat) : survivors evenGraph 19 round = graph 19 := by
  apply trim_rounds_stable
  intro edge small side _
  exact even_graph_mated side edge small

/-- Edges in a range are no more than its width. -/
theorem ncard_le_width {edges : Set Nat} (first width : Nat)
    (inside : ∀ edge ∈ edges, first ≤ edge ∧ edge < first + width) : edges.ncard ≤ width := by
  have within : edges ⊆ ↑(Finset.Ico first (first + width)) :=
    fun edge member => Finset.mem_coe.mpr (Finset.mem_Ico.mpr (inside edge member))
  have fewer := Set.ncard_le_ncard within (Finset.finite_toSet _)
  rwa [Set.ncard_coe_finset, Nat.card_Ico, Nat.add_sub_cancel_left] at fewer

/-- The sizes of a run over the graph in two parts. -/
theorem even_graph_sizes : deadBucketCount 19 2 = 1 ∧ denseCapacity 19 2 = 137624 ∧
    262144 ≤ hybridCapacity 19 (2 ^ 19) := by
  decide

/-- A bucket is asked for by half of a part. -/
theorem even_graph_load (side part bucket : Nat) :
    partLoad evenGraph 19 2 side (graph 19) part bucket ≤ 131072 := by
  apply ncard_le_width (part * 262144 + (part + bucket) % 2 * 131072)
  rintro edge ⟨_, in_part, here⟩
  rw [partOf, even_graph_sizes.1, Nat.one_mul] at in_part
  rw [even_graph_bucket] at here
  omega

/-- The dense rounds over the graph have slots for all edges, and no edge dies. -/
theorem even_graph_dense (round : Nat) : DenseRoundFits evenGraph 19 2 round := by
  rw [DenseRoundFits, even_graph_survivors]
  constructor
  · intro part _ bucket _
    rw [even_graph_sizes.2.1]
    exact (even_graph_load (round % 2) part bucket).trans (by decide)
  · intro part _ list _
    have none : {edge ∈ graph 19 | edge / 262144 = part * deadBucketCount 19 2 + list ∧
        ¬ ∃ mate ∈ graph 19, evenGraph mate (round % 2) = evenGraph edge (round % 2) ^^^ 1} = ∅ := by
      rw [Set.eq_empty_iff_forall_notMem]
      rintro edge ⟨small, _, lonely⟩
      exact lonely (even_graph_mated (round % 2) edge small)
    rw [deathLoad, none, Set.ncard_empty]
    exact Nat.zero_le _

/-- The arenas have slots for all edges: a bucket is asked for by half of each part. -/
theorem even_graph_arena (round : Nat) : ArenaFits evenGraph 19 round := by
  have listed : (graph 19).ncard = (List.range (2 ^ 19)).length :=
    ncard_of_listed List.nodup_range fun edge => List.mem_range
  have all : (graph 19).ncard = 2 ^ 19 := listed.trans List.length_range
  have finite : (graph 19).Finite := Set.finite_lt_nat (2 ^ 19)
  intro bucket _
  rw [even_graph_survivors, all, bucketLoad, even_graph_survivors]
  have halves : {edge ∈ graph 19 | evenGraph edge (round % 2) / 262144 = bucket} ⊆
      {edge ∈ graph 19 | partOf 19 2 edge = 0 ∧ evenGraph edge (round % 2) / 262144 = bucket} ∪
        {edge ∈ graph 19 | partOf 19 2 edge = 1 ∧ evenGraph edge (round % 2) / 262144 = bucket} := by
    rintro edge ⟨small, here⟩
    have inside : edge < 2 ^ 19 := small
    have part : partOf 19 2 edge = edge / 262144 := by
      rw [partOf, even_graph_sizes.1, Nat.one_mul]
    rcases show edge / 262144 = 0 ∨ edge / 262144 = 1 by omega with first | second
    · exact Or.inl ⟨small, part.trans first, here⟩
    · exact Or.inr ⟨small, part.trans second, here⟩
  calc {edge ∈ graph 19 | evenGraph edge (round % 2) / 262144 = bucket}.ncard
      ≤ _ := Set.ncard_le_ncard halves
        ((finite.subset fun _ member => member.1).union (finite.subset fun _ member => member.1))
    _ ≤ _ := Set.ncard_union_le _ _
    _ ≤ 131072 + 131072 := Nat.add_le_add (even_graph_load (round % 2) 0 bucket)
        (even_graph_load (round % 2) 1 bucket)
    _ ≤ hybridCapacity 19 (2 ^ 19) := even_graph_sizes.2.2

/-- Reservations in the order of the threads. -/
def orderly : Orders :=
  let schedule : Schedule := ⟨id, listed_perm⟩
  ⟨fun _ _ => schedule, fun _ _ => schedule, fun _ _ => schedule, fun _ => schedule, fun _ => schedule⟩

/-! ## The theorem -/

section

variable {endpoint : Nat → Nat → Nat} {orders : Orders} {edgeBits parts rounds : Nat}
variable {memory : Device} {contents : Nat → BitVec 32}

/-- If the counters do not wrap, a run with few enough rounds is exact or refuses. -/
theorem exact_or_refuses_of_unwrapped (power : Nat) (power_of_two : parts = 2 ^ power)
    (inRange : 18 ≤ edgeBits ∧ edgeBits ≤ 32) (two : 2 ≤ parts) (most : parts ≤ 2 ^ (edgeBits - 18))
    (inGraph : ∀ edge side, endpoint edge side < 2 ^ edgeBits)
    (unwrapped : Unwrapped endpoint edgeBits parts rounds)
    (few : rounds ≤ 4294967283 ∨ ¬ EarlyFits endpoint edgeBits parts rounds) :
    ExactOrRefuses endpoint orders edgeBits parts memory contents rounds := by
  have sizes := sizes_of_power power_of_two inRange two most
  by_cases fits : EarlyFits endpoint edgeBits parts rounds
  · obtain ⟨kept, early⟩ := @not_refused_of_fits endpoint orders edgeBits parts rounds memory contents
      sizes inGraph fits
    have enough : rounds ≤ 4294967283 := few.resolve_right (not_not.mpr fits)
    exact exact_or_refuses_late power power_of_two inRange two most inGraph enough early kept
  · exact exact_or_refuses_early power power_of_two inRange two most inGraph
      (refused_of_not_fits sizes inGraph unwrapped fits)

end

end CuckatooMiner.Metal
