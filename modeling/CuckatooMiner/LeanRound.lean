import Mathlib
import CuckatooMiner.Foundation.PackedBits

/-!
# Direct rounds on the GPU

The lean path keeps one bit for each edge and one for each node of a side. A round
clears the nodes, marks the node of every live edge, and clears the edges whose
complementary node is not marked. Marks only add up, and each thread owns the words
of the edges it trims, so the order of the threads does not matter; the kernels are
given in the order of the words.

Slean rounds are compared with this round, for any endpoint function.
-/

namespace CuckatooMiner.LeanRound

open PackedBits

/-- The words of a GPU bitmap. -/
abbrev Bitmap := List (BitVec 32)

/-- The mask of a graph's nodes. -/
def nodeMask (edgeBits : Nat) : Nat := 2 ^ edgeBits - 1

/-- Clear all nodes. -/
def clearNodes (wordCount : Nat) : Bitmap := List.replicate wordCount 0#32

/-- Mark the node of every live edge. -/
def markNodes (endpoint : Nat → Nat) (edgeBits : Nat) (edges nodes : Bitmap) : Bitmap :=
  (members 0 edges).foldl (fun nodes edge => put nodes (endpoint edge &&& nodeMask edgeBits)) nodes

/-- Whether the complementary node of an edge is not marked. -/
def unmarked (endpoint : Nat → Nat) (edgeBits : Nat) (nodes : Bitmap) (edge : Nat) : Bool :=
  !test nodes ((endpoint edge ^^^ 1) &&& nodeMask edgeBits)

/-- Clear the live edges whose complementary node is not marked. -/
def trimEdges (endpoint : Nat → Nat) (edgeBits : Nat) (nodes edges : Bitmap) : Bitmap :=
  ((members 0 edges).filter (unmarked endpoint edgeBits nodes)).foldl clear edges

/-- One direct round. Threads that share a word combine their bits, so no order of them enters. -/
def leanRound (endpoint : Nat → Nat) (edgeBits wordCount : Nat) (edges : Bitmap) : Bitmap :=
  trimEdges endpoint edgeBits (markNodes endpoint edgeBits edges (clearNodes wordCount)) edges

/-- Some live edge has the complementary node of an edge. -/
def Mated (endpoint : Nat → Nat) (edges : Bitmap) (edge : Nat) : Prop :=
  ∃ other, test edges other = true ∧ endpoint other = endpoint edge ^^^ 1

variable {endpoint : Nat → Nat} {edgeBits wordCount : Nat} {edges : Bitmap}

/-- Masking a node of the graph changes nothing. -/
theorem masked_node (node : Nat) (inGraph : node < 2 ^ edgeBits) :
    node &&& nodeMask edgeBits = node := by
  rw [nodeMask, Nat.and_two_pow_sub_one_eq_mod, Nat.mod_eq_of_lt inGraph]

/-- The live edges are listed. -/
theorem mem_live (edges : Bitmap) (edge : Nat) :
    edge ∈ members 0 edges ↔ test edges edge = true := by
  rw [mem_members _ _ _ (by decide), Nat.zero_mul, Nat.sub_zero]
  simp

/-- A round keeps the length of the bitmap. -/
theorem lean_round_length : (leanRound endpoint edgeBits wordCount edges).length = edges.length :=
  clear_all_length _ _

/-- A round keeps exactly the mated edges. -/
theorem test_lean_round (positive : 0 < edgeBits) (inGraph : ∀ edge, endpoint edge < 2 ^ edgeBits)
    (covers : 2 ^ edgeBits ≤ wordCount * 32) (edge : Nat) :
    test (leanRound endpoint edgeBits wordCount edges) edge = true ↔
      test edges edge = true ∧ Mated endpoint edges edge := by
  have mates : ∀ edge, endpoint edge ^^^ 1 < 2 ^ edgeBits := fun edge =>
    Nat.xor_lt_two_pow (inGraph edge) (Nat.one_lt_two_pow (by omega))
  have marked : ∀ node, test (markNodes endpoint edgeBits edges (clearNodes wordCount)) node = true ↔
      ∃ other, test edges other = true ∧ endpoint other = node := by
    intro node
    have as_list : markNodes endpoint edgeBits edges (clearNodes wordCount) =
        ((members 0 edges).map endpoint).foldl put (clearNodes wordCount) := by
      rw [List.foldl_map, markNodes]
      simp only [masked_node _ (inGraph _)]
    rw [as_list, test_put_all _ _ _ (by decide)]
    · simp only [clearNodes, test_replicate_zero, Bool.false_or, decide_eq_true_eq, List.mem_map,
        mem_live]
    · intro item member
      obtain ⟨other, _, rfl⟩ := List.mem_map.mp member
      have small := inGraph other
      rw [clearNodes, List.length_replicate]
      exact (Nat.div_lt_iff_lt_mul (by decide)).mpr (by omega)
  rw [leanRound, trimEdges, test_clear_all _ _ _ (by decide)]
  · have mated := marked (endpoint edge ^^^ 1)
    simp only [Bool.and_eq_true, Bool.not_eq_true', decide_eq_false_iff_not, List.mem_filter, mem_live,
      unmarked, masked_node _ (mates edge), not_and, Bool.not_eq_false]
    constructor
    · rintro ⟨live, keeps⟩
      exact ⟨live, mated.mp (keeps live)⟩
    · rintro ⟨live, has_mate⟩
      exact ⟨live, fun _ => mated.mpr has_mate⟩
  · intro item member
    exact inside_of_test _ _ ((mem_live edges item).mp (List.mem_of_mem_filter member))

end CuckatooMiner.LeanRound
