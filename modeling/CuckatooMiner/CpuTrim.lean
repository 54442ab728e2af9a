import Mathlib
import CuckatooMiner.Solver
import CuckatooMiner.TwoCore
import CuckatooMiner.Foundation.PackedBits

/-!
# Bitmap trimming on the CPU

`trim_survivors_cancellable` keeps the live edges in a bitmap. Each round marks
the nodes of the live edges on one side in a second bitmap and then clears every
live edge whose complementary node is unmarked; sides alternate, and a round
that kills nothing is the last. The survivors are read off word by word.

The live edges after a number of rounds are exactly the edges that survive as
many rounds of the abstract trimming, so the core survives whatever the number
of rounds was and wherever the loop stopped.
-/

namespace CuckatooMiner.CpuTrim

open SipHash Verify Solver Pruning PackedBits TwoCore

/-- Mark the nodes of the live edges on one side. -/
def markNodes (request : GraphParams) (side edgeCount : Nat) (alive occupied : List (BitVec 64)) :
    List (BitVec 64) :=
  (List.range edgeCount).foldl (fun occupied edge =>
    if test alive edge then put occupied (endpoint request.keys request.edgeBits edge side)
    else occupied) occupied

/-- Clear one edge if it is alive and its complementary node is not marked. -/
def trimEdge (request : GraphParams) (side : Nat) (occupied : List (BitVec 64))
    (state : List (BitVec 64) × Nat) (edge : Nat) : List (BitVec 64) × Nat :=
  if ¬ test state.1 edge then state
  else
    let mate := endpoint request.keys request.edgeBits edge side ^^^ 1
    if ¬ test occupied mate then (clear state.1 edge, state.2 + 1) else state

/-- Trim all edges of a round and count the killed ones. -/
def trimEdges (request : GraphParams) (side edgeCount : Nat) (alive occupied : List (BitVec 64)) :
    List (BitVec 64) × Nat :=
  (List.range edgeCount).foldl (trimEdge request side occupied) (alive, 0)

/-- The rounds, numbered from `round`. The flag is read before each round;
    `cancel k` is what the read before round `k` sees. -/
def trimRoundLoop (request : GraphParams) (edgeCount wordCount : Nat) (cancel : Nat → Bool) :
    Nat → Nat → List (BitVec 64) → Option (List (BitVec 64))
  | 0, _, alive => some alive
  | remaining + 1, round, alive =>
      if cancel round then none
      else
        let side := round % 2
        let occupied := markNodes request side edgeCount alive (List.replicate wordCount 0#64)
        let (alive, killed) := trimEdges request side edgeCount alive occupied
        if killed = 0 then some alive
        else trimRoundLoop request edgeCount wordCount cancel remaining (round + 1) alive

/-- The bitmap of all edges; a graph smaller than a word fills part of it. -/
def allAlive (edgeCount wordCount : Nat) : List (BitVec 64) :=
  let alive := List.replicate wordCount (BitVec.allOnes 64)
  if edgeCount < 64 then alive.set 0 ((1#64 <<< edgeCount) - 1#64) else alive

/-- Read the survivors off the bitmap, dropping padding bits. -/
def readSurvivors (edgeCount : Nat) (alive : List (BitVec 64)) : List Nat :=
  (members 0 alive).filter (· < edgeCount)

/-- Trim for the requested rounds; nothing is returned when cancelled. The flag is a function of
    the round before which it is read. Memory for the bitmap is assumed to be there. -/
def trimSurvivorsCancellable (request : GraphParams) (maxEdgeBits : Nat) (cancel : Nat → Bool) :
    Except SolveError (Option (List Nat)) :=
  if request.edgeBits > maxEdgeBits then
    .error (.unsupported ("CPU backend is capped at edge_bits=" ++ toString maxEdgeBits ++
      "; use --backend wgpu for C32"))
  else
    let edgeCount := 2 ^ request.edgeBits
    let wordCount := (edgeCount + 63) / 64
    if 2 ^ 64 ≤ wordCount then .error (.unsupported "graph does not fit this CPU address space")
    else
      match trimRoundLoop request edgeCount wordCount cancel request.rounds 0
        (allAlive edgeCount wordCount) with
      | none => .ok none
      | some alive => .ok (some (readSurvivors edgeCount alive))

/-! ## What a round computes -/

variable (request : GraphParams) (edgeCount : Nat)

/-- The live edges of a bitmap. -/
def liveEdges (alive : List (BitVec 64)) : Set Nat := {e | e < edgeCount ∧ test alive e = true}

/-- After marking, a node is marked exactly when it was before or is the node of
    a live edge. -/
theorem test_mark_nodes (side : Nat) (alive occupied : List (BitVec 64)) (node : Nat)
    (fits : ∀ edge, endpoint request.keys request.edgeBits edge side / 64 < occupied.length) :
    test (markNodes request side edgeCount alive occupied) node = true ↔
      test occupied node = true ∨ ∃ e ∈ liveEdges edgeCount alive,
        endpoint request.keys request.edgeBits e side = node := by
  have as_list : markNodes request side edgeCount alive occupied =
      (((List.range edgeCount).filter (test alive ·)).map
        (endpoint request.keys request.edgeBits · side)).foldl put occupied := by
    rw [List.foldl_map, List.foldl_filter]
    rfl
  rw [as_list, test_put_all _ _ _ (by decide)]
  · simp only [Bool.or_eq_true, decide_eq_true_eq, List.mem_map, List.mem_filter, List.mem_range,
      liveEdges, Set.mem_ofPred_eq]
  · intro item member
    obtain ⟨edge, _, rfl⟩ := List.mem_map.mp member
    exact fits edge

/-- The mark that an edge's survival depends on. -/
def kept (side : Nat) (occupied : List (BitVec 64)) (edge : Nat) : Bool :=
  test occupied (endpoint request.keys request.edgeBits edge side ^^^ 1)

/-- An edge that is not alive is passed over. -/
theorem trim_edge_dead (side : Nat) (occupied : List (BitVec 64))
    (state : List (BitVec 64) × Nat) (edge : Nat) (dead : ¬ test state.1 edge = true) :
    trimEdge request side occupied state edge = state := by
  rw [trimEdge, if_pos dead]

/-- A live edge with a mark stays. -/
theorem trim_edge_kept (side : Nat) (occupied : List (BitVec 64))
    (state : List (BitVec 64) × Nat) (edge : Nat) (marked : kept request side occupied edge = true) :
    trimEdge request side occupied state edge = state := by
  rw [trimEdge]
  split
  · rfl
  · exact if_neg (not_not.mpr marked)

/-- A live edge without a mark is killed. -/
theorem trim_edge_killed (side : Nat) (occupied : List (BitVec 64))
    (state : List (BitVec 64) × Nat) (edge : Nat) (alive : test state.1 edge = true)
    (unmarked : ¬ kept request side occupied edge = true) :
    trimEdge request side occupied state edge = (clear state.1 edge, state.2 + 1) := by
  rw [trimEdge, if_neg (not_not.mpr alive)]
  exact if_pos unmarked

/-- One step of the trimming pass decides about its own edge only. -/
theorem test_trim_edge (side : Nat) (occupied : List (BitVec 64))
    (state : List (BitVec 64) × Nat) (edge other : Nat) :
    test (trimEdge request side occupied state edge).1 other = true ↔
      test state.1 other = true ∧ (other = edge → kept request side occupied other = true) := by
  by_cases alive : test state.1 edge = true
  · by_cases marked : kept request side occupied edge = true
    · rw [trim_edge_kept request side occupied state edge marked]
      refine ⟨fun present => ⟨present, ?_⟩, And.left⟩
      rintro rfl
      exact marked
    · rw [trim_edge_killed request side occupied state edge alive marked,
        test_clear _ _ _ (by decide) (inside_of_test _ _ alive), Bool.and_eq_true,
        Bool.not_eq_true', decide_eq_false_iff_not]
      constructor
      · rintro ⟨present, different⟩
        exact ⟨present, fun same => absurd same different⟩
      · rintro ⟨present, only⟩
        refine ⟨present, ?_⟩
        rintro rfl
        exact marked (only rfl)
  · rw [trim_edge_dead request side occupied state edge alive]
    refine ⟨fun present => ⟨present, ?_⟩, And.left⟩
    rintro rfl
    exact absurd present alive

/-- Trimming a list of edges keeps exactly the edges outside the list and those
    whose complementary node is marked. -/
theorem test_trim_edges (side : Nat) (occupied : List (BitVec 64)) (edges : List Nat)
    (state : List (BitVec 64) × Nat) (other : Nat) :
    test (edges.foldl (trimEdge request side occupied) state).1 other = true ↔
      test state.1 other = true ∧
        (other ∈ edges → kept request side occupied other = true) := by
  induction edges generalizing state with
  | nil => simp
  | cons edge rest ih =>
    have step := test_trim_edge request side occupied state edge other
    rw [List.foldl_cons, ih, step, List.mem_cons]
    constructor
    · rintro ⟨⟨present, head⟩, tail⟩
      exact ⟨present, fun member => member.elim head tail⟩
    · rintro ⟨present, both⟩
      exact ⟨⟨present, fun same => both (Or.inl same)⟩, fun member => both (Or.inr member)⟩

/-- A round on one side is the abstract trimming of that side. -/
theorem live_after_round (side wordCount : Nat) (alive : List (BitVec 64))
    (fits : ∀ edge, endpoint request.keys request.edgeBits edge side / 64 < wordCount) :
    liveEdges edgeCount (trimEdges request side edgeCount alive
        (markNodes request side edgeCount alive (List.replicate wordCount 0#64))).1 =
      trimSide (Complementary request.keys request.edgeBits) side (liveEdges edgeCount alive) := by
  have marked := test_mark_nodes request edgeCount side alive (List.replicate wordCount 0#64)
  apply Set.ext
  intro e
  simp only [liveEdges, trimSide, Set.mem_ofPred_eq, trimEdges,
    test_trim_edges request side _ _ _ e, List.mem_range, kept]
  rw [and_assoc]
  refine and_congr_right fun inside => and_congr_right fun _ => ?_
  rw [marked _ (by simpa using fits), test_replicate_zero]
  simp [inside, Complementary, liveEdges]

/-- The loop ends after some of its rounds with exactly the edges that survive
    as many; stopping early only means that fewer rounds have run. -/
theorem trim_round_loop_live (wordCount : Nat) (cancel : Nat → Bool) (all : Set Nat)
    (fits : ∀ edge side, endpoint request.keys request.edgeBits edge side / 64 < wordCount)
    (remaining round : Nat) (alive last : List (BitVec 64))
    (here : liveEdges edgeCount alive =
      trimRounds (Complementary request.keys request.edgeBits) all round)
    (ended : trimRoundLoop request edgeCount wordCount cancel remaining round alive = some last) :
    ∃ rounds ≤ round + remaining, liveEdges edgeCount last =
      trimRounds (Complementary request.keys request.edgeBits) all rounds := by
  induction remaining generalizing round alive with
  | zero =>
    cases ended
    exact ⟨round, Nat.le_refl _, here⟩
  | succ remaining ih =>
    have next := live_after_round request edgeCount (round % 2) wordCount alive
      (fun edge => fits edge _)
    rw [here] at next
    simp only [trimRoundLoop] at ended
    split at ended
    · cases ended
    · split at ended
      · cases ended
        exact ⟨round + 1, by omega, next⟩
      · obtain ⟨rounds, bound, live⟩ := ih (round + 1) _ next ended
        exact ⟨rounds, by omega, live⟩

/-- A loop that is never cancelled returns a bitmap. -/
theorem trim_round_loop_uncancelled (wordCount : Nat) (cancel : Nat → Bool)
    (never : ∀ k, cancel k = false) (remaining round : Nat) (alive : List (BitVec 64)) :
    ∃ last, trimRoundLoop request edgeCount wordCount cancel remaining round alive = some last := by
  induction remaining generalizing round alive with
  | zero => exact ⟨alive, rfl⟩
  | succ remaining ih =>
    simp only [trimRoundLoop, never round, Bool.false_eq_true, if_false]
    split
    · exact ⟨_, rfl⟩
    · exact ih (round + 1) _

/-- Initially every edge of the graph is alive. -/
theorem live_all (wordCount : Nat) (covers : edgeCount ≤ wordCount * 64) :
    liveEdges edgeCount (allAlive edgeCount wordCount) = {e | e < edgeCount} := by
  apply Set.ext
  intro e
  simp only [liveEdges, Set.mem_ofPred_eq, and_iff_left_iff_imp]
  intro inside
  rw [test_eq_getLsbD _ _ (by decide)]
  have word : e / 64 < wordCount := by omega
  have place : e % 64 < 64 := Nat.mod_lt _ (by decide)
  unfold allAlive
  split
  · rename_i small
    have first : e / 64 = 0 := by omega
    have wide : 2 ^ edgeCount < 2 ^ 64 := Nat.pow_lt_pow_right (by decide) small
    have filled : ((1#64 <<< edgeCount) - 1#64).toNat = 2 ^ edgeCount - 1 := by
      have shifted : (1#64 <<< edgeCount).toNat = 2 ^ edgeCount := by
        rw [BitVec.toNat_shiftLeft, Nat.shiftLeft_eq]
        exact (congrArg (· % 2 ^ 64) (Nat.one_mul _)).trans (Nat.mod_eq_of_lt wide)
      rw [BitVec.toNat_sub_of_le]
      · rw [shifted]
        rfl
      · rw [BitVec.le_def, shifted]
        exact Nat.two_pow_pos edgeCount
    rw [first] at word ⊢
    rw [List.getD_eq_getElem?_getD, List.getElem?_set_self (by simpa using word),
      Option.getD_some, ← BitVec.testBit_toNat, filled, Nat.testBit_two_pow_sub_one,
      decide_eq_true_eq]
    omega
  · rw [List.getD_eq_getElem _ _ (by simpa using word), List.getElem_replicate,
      BitVec.getLsbD_allOnes, decide_eq_true_eq]
    exact place

/-- The survivors read off a bitmap are its live edges, in ascending order. -/
theorem read_survivors_spec (alive : List (BitVec 64)) :
    (readSurvivors edgeCount alive).Pairwise (· < ·) ∧
      ∀ e, e ∈ readSurvivors edgeCount alive ↔ e ∈ liveEdges edgeCount alive := by
  refine ⟨(members_ascending alive 0 (by decide)).filter _, ?_⟩
  intro e
  simp only [readSurvivors, List.mem_filter, mem_members alive 0 e (by decide), liveEdges,
    Set.mem_ofPred_eq, Nat.zero_mul, Nat.zero_le, true_and, Nat.sub_zero, decide_eq_true_eq]
  exact and_comm

/-! ## What trimming returns -/

/-- The survivors are the edges left by some number of abstract rounds, at most
    as many as requested, in ascending order. -/
theorem trim_survivors_spec (maxEdgeBits : Nat) (cancel : Nat → Bool) (survivors : List Nat)
    (inRange : request.edgeBits ≤ 32)
    (trimmed : trimSurvivorsCancellable request maxEdgeBits cancel = .ok (some survivors)) :
    survivors.Pairwise (· < ·) ∧ ∃ rounds ≤ request.rounds, ∀ e, e ∈ survivors ↔
      e ∈ trimRounds (Complementary request.keys request.edgeBits) (graph request.edgeBits)
        rounds := by
  have fits : ∀ edge side, endpoint request.keys request.edgeBits edge side / 64 <
      (2 ^ request.edgeBits + 63) / 64 := by
    intro edge side
    have bound := endpoint_lt request.keys request.edgeBits edge side inRange
    omega
  have all := live_all (2 ^ request.edgeBits) ((2 ^ request.edgeBits + 63) / 64) (by omega)
  unfold trimSurvivorsCancellable at trimmed
  split at trimmed
  · cases trimmed
  · simp only at trimmed
    split at trimmed
    · cases trimmed
    · split at trimmed
      · cases trimmed
      · rename_i last ended
        cases trimmed
        obtain ⟨rounds, bound, live⟩ := trim_round_loop_live request _ _ cancel
          (graph request.edgeBits) fits request.rounds 0 _ last all ended
        obtain ⟨ascending, exact_members⟩ := read_survivors_spec (2 ^ request.edgeBits) last
        exact ⟨ascending, rounds, by simpa using bound, fun e => by rw [exact_members, live]⟩

/-- A trim that is never cancelled and within the backend's limit reads the survivors off
    the bitmap that the loop ends with. -/
theorem trim_survivors_loop (maxEdgeBits : Nat) (cancel : Nat → Bool)
    (inRange : request.edgeBits ≤ 32) (supported : request.edgeBits ≤ maxEdgeBits)
    (never : ∀ k, cancel k = false) :
    ∃ last, trimRoundLoop request (2 ^ request.edgeBits) ((2 ^ request.edgeBits + 63) / 64) cancel
        request.rounds 0 (allAlive (2 ^ request.edgeBits) ((2 ^ request.edgeBits + 63) / 64)) =
          some last ∧
      trimSurvivorsCancellable request maxEdgeBits cancel =
        .ok (some (readSurvivors (2 ^ request.edgeBits) last)) := by
  have small : (2 ^ request.edgeBits + 63) / 64 < 2 ^ 64 := by
    have bound : 2 ^ request.edgeBits ≤ 2 ^ 32 := Nat.pow_le_pow_right (by decide) inRange
    omega
  obtain ⟨last, ended⟩ := trim_round_loop_uncancelled request (2 ^ request.edgeBits)
    ((2 ^ request.edgeBits + 63) / 64) cancel never request.rounds 0
    (allAlive (2 ^ request.edgeBits) ((2 ^ request.edgeBits + 63) / 64))
  refine ⟨last, ended, ?_⟩
  rw [trimSurvivorsCancellable, if_neg (by omega)]
  simp only
  rw [if_neg (by omega), ended]

/-- So it returns survivors. -/
theorem trim_survivors_total (maxEdgeBits : Nat) (cancel : Nat → Bool)
    (inRange : request.edgeBits ≤ 32) (supported : request.edgeBits ≤ maxEdgeBits)
    (never : ∀ k, cancel k = false) :
    ∃ survivors, trimSurvivorsCancellable request maxEdgeBits cancel = .ok (some survivors) := by
  obtain ⟨last, _, returned⟩ := trim_survivors_loop request maxEdgeBits cancel inRange supported
    never
  exact ⟨_, returned⟩

end CuckatooMiner.CpuTrim
