import Mathlib
import CuckatooMiner.VerifyExact
import CuckatooMiner.Foundation.Pruning

/-!
# The graph and its core

The edges of a graph are the numbers below two to the edge bits. Edges whose
nodes on a side are complements are mates there. The core is the greatest set of
edges in which every edge has a mate on both sides. A cycle holds the mates of
its own edges, so all its edges lie in the core: whatever keeps the core keeps
every proof.
-/

namespace CuckatooMiner.TwoCore

open SipHash Verify Pruning

/-- All edges of a graph. -/
def graph (edgeBits : Nat) : Set Nat := {e | e < 2 ^ edgeBits}

/-- The edges of a list. -/
def edgeSet (edges : List Nat) : Set Nat := {e | e ∈ edges}

@[simp] theorem mem_edge_set (edges : List Nat) (edge : Nat) :
    edge ∈ edgeSet edges ↔ edge ∈ edges :=
  Iff.rfl

/-- The greatest set of edges that has a mate for each of its edges on both sides. Every cycle
    is among its edges, but an edge of it need not be on a cycle. -/
def twoCore (keys : SipKeys) (edgeBits : Nat) : Set Nat :=
  core (Complementary keys edgeBits) (graph edgeBits)

variable {keys : SipKeys} {edgeBits cycleLength : Nat} {nonces : List Nat}

/-- A cycle holds the mates of its edges. -/
theorem cycle_stable (cycle : IsCycle keys edgeBits cycleLength nonces) :
    Stable (Complementary keys edgeBits) (edgeSet nonces) := by
  intro e member side sided
  obtain ⟨f, ⟨f_member, _, mate⟩, _⟩ := cycle.mates e member side sided
  exact ⟨f, f_member, mate⟩

/-- Every edge of a cycle is in the core. -/
theorem cycle_in_core (cycle : IsCycle keys edgeBits cycleLength nonces) (e : Nat)
    (member : e ∈ nonces) : e ∈ twoCore keys edgeBits :=
  core_greatest (fun _ inside => cycle.inGraph _ inside) (cycle_stable cycle) member

end CuckatooMiner.TwoCore
