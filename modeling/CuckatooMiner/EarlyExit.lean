import Mathlib
import CuckatooMiner.CpuTrim
import CuckatooMiner.GpuLean

/-!
# Stopping at a quiet round

The CPU trimmer stops at the first round that kills no edge. A side that was just
trimmed is stable, so after the first round a quiet round leaves both sides stable,
and the rounds that are left out would remove nothing.

Before round zero no side was trimmed. If that round is quiet, the trimmer stops
without a look at the other side, and returns all edges. This is what distinguishes
it from performing all rounds, which is what the direct path on the GPU does.
-/

namespace CuckatooMiner.EarlyExit

open SipHash Verify Solver Pruning PackedBits TwoCore CpuTrim
open Reservation (Schedule)

/-- The bitmap and the number of killed edges of a round. -/
def roundResult (request : GraphParams) (edgeCount wordCount round : Nat)
    (alive : List (BitVec 64)) : List (BitVec 64) × Nat :=
  trimEdges request (round % 2) edgeCount alive
    (markNodes request (round % 2) edgeCount alive (List.replicate wordCount 0#64))

/-- The bitmap after all of a number of rounds. -/
def allRounds (request : GraphParams) (edgeCount wordCount rounds : Nat)
    (alive : List (BitVec 64)) : List (BitVec 64) :=
  (List.range rounds).foldl
    (fun alive round => (roundResult request edgeCount wordCount round alive).1) alive

/-- The survivors of all requested rounds. -/
def fullTrim (request : GraphParams) : List Nat :=
  let edgeCount := 2 ^ request.edgeBits
  let wordCount := (edgeCount + 63) / 64
  readSurvivors edgeCount
    (allRounds request edgeCount wordCount request.rounds (allAlive edgeCount wordCount))

/-- Round zero is quiet and a later round would not be: every edge has a mate on side zero, some
    edge has none on side one, and side one was to be trimmed. This is a condition on the graph
    and the number of rounds, and does not mention what the trimmer computes. -/
def StopsTooEarly (request : GraphParams) : Prop :=
  2 ≤ request.rounds ∧
    (∀ e < 2 ^ request.edgeBits, ∃ f < 2 ^ request.edgeBits,
      Complementary request.keys request.edgeBits 0 e f) ∧
    ∃ e < 2 ^ request.edgeBits, ∀ f < 2 ^ request.edgeBits,
      ¬ Complementary request.keys request.edgeBits 1 e f

/-! ## Quiet rounds -/

section Rounds

variable (request : GraphParams) (edgeCount wordCount : Nat)

/-- Complements are mutual. -/
theorem complementary_symm (keys : SipKeys) (edgeBits side e f : Nat)
    (mate : Complementary keys edgeBits side e f) : Complementary keys edgeBits side f e := by
  rw [Complementary] at mate ⊢
  rw [mate, Nat.xor_assoc, Nat.xor_self, Nat.xor_zero]

/-- The count of killed edges never goes down. -/
theorem killed_mono (side : Nat) (occupied : List (BitVec 64)) (edges : List Nat)
    (state : List (BitVec 64) × Nat) :
    state.2 ≤ (edges.foldl (trimEdge request side occupied) state).2 := by
  induction edges generalizing state with
  | nil => exact Nat.le_refl _
  | cons edge rest ih =>
    have step : state.2 ≤ (trimEdge request side occupied state edge).2 := by
      rw [trimEdge]
      split
      · exact Nat.le_refl _
      · simp only
        split
        · exact Nat.le_succ _
        · exact Nat.le_refl _
    exact step.trans (ih _)

/-- No edge is killed exactly when every live edge keeps its mark. -/
theorem killed_zero_iff (side : Nat) (occupied : List (BitVec 64)) (edges : List Nat)
    (state : List (BitVec 64) × Nat) :
    (edges.foldl (trimEdge request side occupied) state).2 = state.2 ↔
      ∀ edge ∈ edges, test state.1 edge = true → kept request side occupied edge = true := by
  induction edges generalizing state with
  | nil => simp
  | cons edge rest ih =>
    rw [List.foldl_cons, List.forall_mem_cons]
    by_cases alive : test state.1 edge = true
    · by_cases marked : kept request side occupied edge = true
      · rw [trim_edge_kept request side occupied state edge marked, ih]
        exact ⟨fun later => ⟨fun _ => marked, later⟩, And.right⟩
      · have more := killed_mono request side occupied rest (clear state.1 edge, state.2 + 1)
        rw [trim_edge_killed request side occupied state edge alive marked]
        constructor
        · intro unchanged
          rw [unchanged] at more
          exact absurd more (Nat.not_succ_le_self _)
        · rintro ⟨first, _⟩
          exact absurd (first alive) marked
    · rw [trim_edge_dead request side occupied state edge alive, ih]
      exact ⟨fun later => ⟨fun present => absurd present alive, later⟩, And.right⟩

variable (fits : ∀ edge side, endpoint request.keys request.edgeBits edge side / 64 < wordCount)
include fits

/-- A round is quiet exactly when the live edges are stable on its side. -/
theorem quiet_iff (round : Nat) (alive : List (BitVec 64)) :
    (roundResult request edgeCount wordCount round alive).2 = 0 ↔
      ∀ e ∈ liveEdges edgeCount alive, ∃ f ∈ liveEdges edgeCount alive,
        Complementary request.keys request.edgeBits (round % 2) e f := by
  have marked := test_mark_nodes request edgeCount (round % 2) alive
    (List.replicate wordCount 0#64)
  rw [roundResult, trimEdges, killed_zero_iff request (round % 2) _ _ (alive, 0)]
  simp only [kept, List.mem_range]
  constructor
  · rintro keeps e ⟨inside, live⟩
    have mark := (marked _ (by simpa using fun edge => fits edge _)).mp (keeps e inside live)
    simpa [test_replicate_zero, Complementary] using mark
  · intro stable e inside live
    refine (marked _ (by simpa using fun edge => fits edge _)).mpr (Or.inr ?_)
    exact stable e ⟨inside, live⟩

/-- A round trims the live edges once more. -/
theorem round_result_live (all : Set Nat) (round : Nat) (alive : List (BitVec 64))
    (here : liveEdges edgeCount alive =
      trimRounds (Complementary request.keys request.edgeBits) all round) :
    liveEdges edgeCount (roundResult request edgeCount wordCount round alive).1 =
      trimRounds (Complementary request.keys request.edgeBits) all (round + 1) := by
  rw [roundResult, live_after_round request edgeCount (round % 2) wordCount alive
    (fun edge => fits edge _), here]
  rfl

/-- Performing all rounds leaves the edges that survive as many. -/
theorem all_rounds_live (all : Set Nat) (rounds : Nat) (alive : List (BitVec 64))
    (start : liveEdges edgeCount alive = all) :
    liveEdges edgeCount (allRounds request edgeCount wordCount rounds alive) =
      trimRounds (Complementary request.keys request.edgeBits) all rounds := by
  induction rounds with
  | zero => exact start
  | succ round ih =>
    rw [allRounds, List.range_succ, List.foldl_append]
    exact round_result_live request edgeCount wordCount fits all round _ ih

/-- A loop that starts after round zero leaves the edges that survive all its rounds,
    wherever it stops. -/
theorem later_loop_live (cancel : Nat → Bool) (all : Set Nat) (remaining round : Nat)
    (later : 1 ≤ round) (alive last : List (BitVec 64))
    (here : liveEdges edgeCount alive =
      trimRounds (Complementary request.keys request.edgeBits) all round)
    (ended : trimRoundLoop request edgeCount wordCount cancel remaining round alive = some last) :
    liveEdges edgeCount last =
      trimRounds (Complementary request.keys request.edgeBits) all (round + remaining) := by
  induction remaining generalizing round alive with
  | zero =>
    cases ended
    exact here
  | succ remaining ih =>
    have next := round_result_live request edgeCount wordCount fits all round alive here
    simp only [trimRoundLoop] at ended
    split at ended
    · cases ended
    · split at ended
      · rename_i quiet
        cases ended
        have stable := (quiet_iff request edgeCount wordCount fits round alive).mp quiet
        rw [here] at stable
        have unchanged : trimRounds (Complementary request.keys request.edgeBits) all (round + 1) =
            trimRounds (Complementary request.keys request.edgeBits) all round :=
          trim_side_eq_self _ stable
        have rest := trim_rounds_quiet (complementary_symm request.keys request.edgeBits) round
          (round + (remaining + 1)) later unchanged (Nat.le_add_right _ _)
        exact (next.trans unchanged).trans rest.symm
      · have whole := ih (round + 1) (Nat.le_add_left _ _) _ next ended
        rwa [show round + 1 + remaining = round + (remaining + 1) by omega] at whole

/-- The whole loop leaves the edges that survive all rounds, unless round zero is quiet:
    then it leaves all edges. -/
theorem whole_loop_live (cancel : Nat → Bool) (all : Set Nat) (rounds : Nat) (some_rounds : 1 ≤ rounds)
    (alive last : List (BitVec 64)) (start : liveEdges edgeCount alive = all)
    (ended : trimRoundLoop request edgeCount wordCount cancel rounds 0 alive = some last) :
    liveEdges edgeCount last =
      if (roundResult request edgeCount wordCount 0 alive).2 = 0 then all
      else trimRounds (Complementary request.keys request.edgeBits) all rounds := by
  obtain ⟨remaining, rfl⟩ := Nat.exists_eq_add_of_le' some_rounds
  have next := round_result_live request edgeCount wordCount fits all 0 alive start
  simp only [trimRoundLoop] at ended
  split at ended
  · cases ended
  · split at ended
    · rename_i quiet
      cases ended
      have stable := (quiet_iff request edgeCount wordCount fits 0 alive).mp quiet
      rw [if_pos (show (roundResult request edgeCount wordCount 0 alive).2 = 0 from quiet)]
      rw [start] at stable
      exact next.trans (trim_side_eq_self 0 stable)
    · rename_i loud
      rw [if_neg (show ¬ (roundResult request edgeCount wordCount 0 alive).2 = 0 from loud),
      Nat.add_comm remaining 1]
      exact later_loop_live request edgeCount wordCount fits cancel all remaining 1 (Nat.le_refl _)
        _ last next ended

end Rounds

/-! ## The survivors -/

/-- Lists read off bitmaps are equal exactly when the same edges are live. -/
theorem read_survivors_eq_iff (edgeCount : Nat) (left right : List (BitVec 64)) :
    readSurvivors edgeCount left = readSurvivors edgeCount right ↔
      liveEdges edgeCount left = liveEdges edgeCount right := by
  obtain ⟨left_ascending, left_members⟩ := read_survivors_spec edgeCount left
  obtain ⟨right_ascending, right_members⟩ := read_survivors_spec edgeCount right
  constructor
  · intro same
    apply Set.ext
    intro edge
    rw [← left_members, ← right_members, same]
  · intro same
    apply left_ascending.eq_of_mem_iff right_ascending
    intro edge
    rw [left_members, right_members, same]

variable (request : GraphParams)

/-- The bitmaps hold the nodes of the graph. -/
theorem nodes_fit (inRange : request.edgeBits ≤ 32) (edge side : Nat) :
    endpoint request.keys request.edgeBits edge side / 64 < (2 ^ request.edgeBits + 63) / 64 := by
  have bound := endpoint_lt request.keys request.edgeBits edge side inRange
  omega

/-- The survivors of all rounds, in ascending order. -/
theorem full_trim_spec (inRange : request.edgeBits ≤ 32) :
    (fullTrim request).Pairwise (· < ·) ∧ ∀ edge, edge ∈ fullTrim request ↔
      edge ∈ trimRounds (Complementary request.keys request.edgeBits) (graph request.edgeBits)
        request.rounds := by
  have live := all_rounds_live request (2 ^ request.edgeBits) ((2 ^ request.edgeBits + 63) / 64)
    (nodes_fit request inRange) (graph request.edgeBits) request.rounds _
    (live_all (2 ^ request.edgeBits) ((2 ^ request.edgeBits + 63) / 64) (by omega))
  rw [← live]
  exact read_survivors_spec _ _

/-- The graph is left as it is by all rounds, although round zero is quiet, exactly when
    the trimmer does not stop too early. -/
theorem quiet_start_iff (some_rounds : 1 ≤ request.rounds)
    (quiet : ∀ e ∈ graph request.edgeBits, ∃ f ∈ graph request.edgeBits,
      Complementary request.keys request.edgeBits 0 e f) :
    trimRounds (Complementary request.keys request.edgeBits) (graph request.edgeBits)
        request.rounds = graph request.edgeBits ↔ ¬ StopsTooEarly request := by
  rcases Nat.lt_or_ge request.rounds 2 with single | both
  · have one : request.rounds = 1 := by omega
    rw [one]
    refine ⟨fun _ early => ?_, fun _ => trim_side_eq_self 0 quiet⟩
    exact absurd early.1 (by omega)
  · rw [trim_rounds_eq_self_iff _ both]
    constructor
    · rintro stable ⟨_, _, e, inside, alone⟩
      obtain ⟨f, f_inside, mate⟩ := stable e inside 1 (by decide)
      exact alone f f_inside mate
    · intro late e inside side sided
      have sides : side = 0 ∨ side = 1 := by omega
      rcases sides with rfl | rfl
      · exact quiet e inside
      · by_contra alone
        refine late ⟨both, quiet, e, inside, fun f f_inside mate => alone ⟨f, f_inside, mate⟩⟩

/-- The CPU trimmer returns the survivors of all rounds exactly when it does not stop too early,
    and what the direct path on the GPU returns for the same request, however its rounds are
    submitted and its threads are ordered, is always the survivors of all rounds. No condition
    is put on the keys but that of the graph. A run that is cancelled is left out. -/
theorem early_exit_exact_iff (maxEdgeBits : Nat) (cancel : Nat → Bool)
    (bits : 1 ≤ request.edgeBits ∧ request.edgeBits ≤ 28) (supported : request.edgeBits ≤ maxEdgeBits)
    (some_rounds : 1 ≤ request.rounds) (stored : request.rounds < 4294967296)
    (never : ∀ k, cancel k = false) :
    (trimSurvivorsCancellable request maxEdgeBits cancel = .ok (some (fullTrim request)) ↔
      ¬ StopsTooEarly request) ∧
    ∀ groups oneRoundAtATime initial schedules turns buffers survivors,
      GpuLean.Launch request.edgeBits groups →
      buffers.edges.length = ( GpuLean.Params.new request.edgeBits).wordCount →
      buffers.nodes.length = ( GpuLean.Params.new request.edgeBits).wordCount →
      GpuLean.trimDirect (fun side edge => endpoint request.keys request.edgeBits edge side)
        request.edgeBits groups schedules request.rounds oneRoundAtATime initial turns buffers =
          some survivors → survivors = fullTrim request := by
  have inRange : request.edgeBits ≤ 32 := by omega
  obtain ⟨full_ascending, full_members⟩ := full_trim_spec request inRange
  refine ⟨?_, ?_⟩
  · have fits := nodes_fit request inRange
    have start := live_all (2 ^ request.edgeBits) ((2 ^ request.edgeBits + 63) / 64) (by omega)
    obtain ⟨last, ended, returned⟩ := trim_survivors_loop request maxEdgeBits cancel inRange
      supported never
    have live := whole_loop_live request _ _ fits cancel (graph request.edgeBits) request.rounds
      some_rounds _ last start ended
    have full := all_rounds_live request _ _ fits (graph request.edgeBits) request.rounds _ start
    have same_iff : trimSurvivorsCancellable request maxEdgeBits cancel =
        .ok (some (fullTrim request)) ↔ liveEdges (2 ^ request.edgeBits) last =
          trimRounds (Complementary request.keys request.edgeBits) (graph request.edgeBits)
            request.rounds := by
      rw [returned, Except.ok.injEq, Option.some.injEq, fullTrim, read_survivors_eq_iff, full]
    have quiet_round := quiet_iff request (2 ^ request.edgeBits)
      ((2 ^ request.edgeBits + 63) / 64) fits 0
      (allAlive (2 ^ request.edgeBits) ((2 ^ request.edgeBits + 63) / 64))
    rw [start] at quiet_round
    rw [same_iff, live]
    split
    · rename_i quiet
      rw [eq_comm]
      exact quiet_start_iff request some_rounds (quiet_round.mp quiet)
    · rename_i loud
      refine ⟨fun _ early => loud (quiet_round.mpr early.2.1), fun _ => rfl⟩
  · intro groups oneRoundAtATime initial schedules turns buffers survivors launch edges_length
      nodes_length direct
    obtain ⟨ascending, members⟩ := GpuLean.direct_returned request.rounds oneRoundAtATime initial
      schedules turns buffers survivors launch
      (fun side edge => endpoint_lt request.keys request.edgeBits edge side inRange) stored
      edges_length nodes_length direct
    apply ascending.eq_of_mem_iff full_ascending
    intro edge
    rw [members, full_members]
    rfl

/-- Two edges that share their node on side zero are both killed by round zero. -/
theorem early_exit_two_edges :
    trimSurvivorsCancellable ⟨⟨2#64, 0#64, 0#64, 0#64⟩, 1, 2, 3⟩ 28 (fun _ => false) =
      .ok (some (fullTrim ⟨⟨2#64, 0#64, 0#64, 0#64⟩, 1, 2, 3⟩)) := by
  have alone : ∀ f < 2, endpoint ⟨2#64, 0#64, 0#64, 0#64⟩ 1 f 0 ≠
      endpoint ⟨2#64, 0#64, 0#64, 0#64⟩ 1 0 0 ^^^ 1 := by decide +kernel
  refine (early_exit_exact_iff ⟨⟨2#64, 0#64, 0#64, 0#64⟩, 1, 2, 3⟩ 28 (fun _ => false) (by decide)
    (by decide) (by decide) (by decide) (fun _ => rfl)).1.mpr ?_
  rintro ⟨_, quiet, _⟩
  obtain ⟨f, inside, mate⟩ := quiet 0 (by decide)
  exact alone f inside mate

/-- Two edges that are mates on side zero and share their node on side one are returned,
    although two rounds leave none of them. -/
theorem early_exit_keeps_edges :
    trimSurvivorsCancellable ⟨⟨0#64, 0#64, 0#64, 0#64⟩, 1, 2, 2⟩ 28 (fun _ => false) ≠
      .ok (some (fullTrim ⟨⟨0#64, 0#64, 0#64, 0#64⟩, 1, 2, 2⟩)) := by
  decide +kernel

end CuckatooMiner.EarlyExit
