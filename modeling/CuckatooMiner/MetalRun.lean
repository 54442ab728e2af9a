import Mathlib
import CuckatooMiner.MetalArenas
import CuckatooMiner.Foundation.Outcome

/-!
# Runs of native Metal trimming

Up to three dense rounds are checked one by one, then the hand-over, then all rounds on
arenas together. A run that sees edges without a slot ends with an error, and one that has
left none returns exactly the survivors of all rounds.

One step counts in thirty-two bits without a check. A batch of sixteen rounds that ends
beyond these numbers ends at round three instead, and the run starts over.
-/

namespace CuckatooMiner.Metal

open PackedBits Reservation LeanRound Pruning TwoCore Outcome Solver
open GpuLean (Mates liveEdges)

/-! ## What a run does -/

section

variable (endpoint : Nat → Nat → Nat) (orders : Orders) (edgeBits parts : Nat)
variable (memory : Device) (contents : Nat → BitVec 32)

/-- The state after some dense rounds. -/
def afterDense (count : Nat) : State :=
  (List.range count).foldl (denseRound endpoint orders edgeBits parts)
    (firstState edgeBits memory contents)

/-- How many edges found no slot in a dense round. -/
def denseLost (round : Nat) : Nat :=
  (afterDense endpoint orders edgeBits parts memory contents (round + 1)).memory.read .overflow

/-- The slots of a bucket after three dense rounds. -/
def arenaCapacity : Nat :=
  hybridCapacity edgeBits
    (aliveCount (afterDense endpoint orders edgeBits parts memory contents 3).edges)

/-- The memory after the hand-over. -/
def handedOver : Device :=
  handOver endpoint orders edgeBits parts 3
    (arenaCapacity endpoint orders edgeBits parts memory contents)
    (afterDense endpoint orders edgeBits parts memory contents 3).edges
    (afterDense endpoint orders edgeBits parts memory contents 3).memory

/-- How many edges found no slot in the hand-over. -/
def handOverLost : Nat := (handedOver endpoint orders edgeBits parts memory contents).read .overflow

/-- The state before the rounds on arenas. -/
def beforeArenas : State :=
  { afterDense endpoint orders edgeBits parts memory contents 3 with
    memory := resetOverflow (handedOver endpoint orders edgeBits parts memory contents)
    edges := List.replicate (wordCount edgeBits) 0#32 }

/-- The state after all rounds on arenas. -/
def afterArenas (rounds : Nat) : State :=
  (List.range' 3 (rounds - 3)).foldl (hybridRound endpoint orders edgeBits
    (sourceParams edgeBits parts 3 (arenaCapacity endpoint orders edgeBits parts memory contents) 0)
    3 rounds) (beforeArenas endpoint orders edgeBits parts memory contents)

/-- How many edges found no slot in all rounds on arenas. -/
def arenasLost (rounds : Nat) : Nat :=
  (afterArenas endpoint orders edgeBits parts memory contents rounds).memory.read .overflow

/-- What the host returns after the rounds on arenas. -/
def arenasResult (rounds : Nat) : Except SolveError (List Nat) :=
  let count := asU32 (arenasLost endpoint orders edgeBits parts memory contents rounds)
  if count ≠ 0 then
    .error (.searchLimit ("hybrid loop overflowed by " ++ toString count ++ " edges"))
  else .ok (members 0 (afterArenas endpoint orders edgeBits parts memory contents rounds).edges)

/-- No edge was without a slot in the dense rounds. It is about what the device counted, not
    about what the host saw of it. -/
def DenseKept (rounds : Nat) : Prop :=
  ∀ round < min rounds 3, denseLost endpoint orders edgeBits parts memory contents round = 0

/-- Some edge was without a slot in a dense round, the hand-over or a round on arenas. The rounds
    on arenas share a counter that is not reset between them. -/
def Overflowed (rounds : Nat) : Prop :=
  (∃ round < min rounds 3, denseLost endpoint orders edgeBits parts memory contents round ≠ 0) ∨
    3 < rounds ∧ (handOverLost endpoint orders edgeBits parts memory contents ≠ 0 ∨
      arenasLost endpoint orders edgeBits parts memory contents rounds ≠ 0)

/-- The host sees that edges were without a slot before the rounds on arenas. The host sees the
    lowest thirty-two bits of a dense round's counter; the counter of the hand-over is far below
    that. -/
def RefusedEarly (rounds : Nat) : Prop :=
  (∃ round < min rounds 3, asU32 (denseLost endpoint orders edgeBits parts memory contents round) ≠ 0) ∨
    3 < rounds ∧ handOverLost endpoint orders edgeBits parts memory contents ≠ 0

/-- A run returns: either with the error of a search limit, and then some edge was without a slot,
    or with the ascending list of exactly the edges that survive all rounds, and then none was.
    Returning means that some fuel is enough. Nothing is said of a cancelled run, or of a device
    on which the indices into the arenas do not fit their thirty-two bits. -/
def ExactOrRefuses (rounds : Nat) : Prop :=
  ∃ fuel result,
    trimSurvivors endpoint orders edgeBits parts fuel rounds memory contents = some result ∧
    ((∃ reason, result = .error (.searchLimit reason)) ∧
        Overflowed endpoint orders edgeBits parts memory contents rounds ∨
      ∃ listed, result = .ok listed ∧ listed.Pairwise (· < ·) ∧
        (∀ edge, edge ∈ listed ↔ edge ∈ survivors endpoint edgeBits rounds) ∧
        ¬ Overflowed endpoint orders edgeBits parts memory contents rounds)

end

variable {endpoint : Nat → Nat → Nat} {orders : Orders} {edgeBits parts rounds : Nat}
variable {memory : Device} {contents : Nat → BitVec 32}

/-! ## Dense rounds -/

/-- One more dense round. -/
theorem after_dense_succ (count : Nat) :
    afterDense endpoint orders edgeBits parts memory contents (count + 1) =
      denseRound endpoint orders edgeBits parts
        (afterDense endpoint orders edgeBits parts memory contents count) count := by
  rw [afterDense, List.range_succ, List.foldl_append]
  rfl

/-- The dense rounds end with an error at the first counter that is not zero, or go through. -/
theorem checked_dense_rounds (count : Nat) :
    (∃ reason, (List.range count).foldlM (checkedDenseRound endpoint orders edgeBits parts)
        (firstState edgeBits memory contents) = .error (.searchLimit reason) ∧
      ∃ round < count, asU32 (denseLost endpoint orders edgeBits parts memory contents round) ≠ 0) ∨
    (List.range count).foldlM (checkedDenseRound endpoint orders edgeBits parts)
        (firstState edgeBits memory contents) =
          .ok (afterDense endpoint orders edgeBits parts memory contents count) ∧
      ∀ round < count, asU32 (denseLost endpoint orders edgeBits parts memory contents round) = 0 := by
  induction count with
  | zero => exact Or.inr ⟨rfl, fun _ none_left => absurd none_left (Nat.not_lt_zero _)⟩
  | succ count ih =>
    rw [List.range_succ, List.foldlM_append]
    rcases ih with ⟨reason, failed, round, before, lost⟩ | ⟨passed, none_seen⟩
    · refine Or.inl ⟨reason, ?_, round, Nat.lt_succ_of_lt before, lost⟩
      rw [failed]
      rfl
    · have next := @after_dense_succ endpoint orders edgeBits parts memory contents count
      rw [passed, bind_of_ok _ _ _ rfl, List.foldlM_cons, checkedDenseRound]
      simp only [overflowCount, ← next]
      split
      · rename_i lost
        exact Or.inl ⟨_, rfl, count, Nat.lt_succ_self count, lost⟩
      · rename_i quiet
        refine Or.inr ⟨rfl, fun round before => ?_⟩
        rcases Nat.lt_or_eq_of_le (Nat.le_of_lt_succ before) with earlier | rfl
        · exact none_seen round earlier
        · exact Decidable.not_not.mp quiet

/-- The bitmaps keep their sizes, and while no edge is without a slot the live edges are the
    survivors of the rounds. -/
theorem after_dense_spec (sizes : Sizes edgeBits parts)
    (inGraph : ∀ edge side, endpoint edge side < 2 ^ edgeBits) (count : Nat) :
    (afterDense endpoint orders edgeBits parts memory contents count).edges.length =
        wordCount edgeBits ∧
      (afterDense endpoint orders edgeBits parts memory contents count).nodes.length =
        wordCount edgeBits ∧
      ((∀ round < count, denseLost endpoint orders edgeBits parts memory contents round = 0) →
        liveEdges (afterDense endpoint orders edgeBits parts memory contents count).edges =
          survivors endpoint edgeBits count) := by
  induction count with
  | zero =>
    refine ⟨List.length_replicate, by simp [afterDense, firstState], fun _ => ?_⟩
    apply Set.ext
    intro edge
    refine (test_replicate_ones (wordCount edgeBits) edge).trans ?_
    rw [word_count_bits (Nat.le_of_lt sizes.wide)]
    rfl
  | succ count ih =>
    obtain ⟨size, nodes_size, live⟩ := ih
    have next := @after_dense_succ endpoint orders edgeBits parts memory contents count
    obtain ⟨next_size, next_nodes_size, keeps⟩ :=
      @dense_round_spec endpoint orders edgeBits parts count sizes inGraph _ size nodes_size
    rw [next]
    refine ⟨next_size, next_nodes_size, fun none_lost => ?_⟩
    have silent := none_lost count (Nat.lt_succ_self count)
    rw [denseLost, next] at silent
    have before := live fun round earlier => none_lost round (Nat.lt_succ_of_lt earlier)
    apply Set.ext
    intro edge
    refine (keeps silent edge).trans ?_
    rw [survivors, trimRounds, ← survivors, ← before, ← Nat.and_one_is_mod]
    rfl

/-! ## Rounds on arenas -/

/-- Buckets have room after the dense rounds. -/
theorem arena_capacity_positive :
    0 < arenaCapacity endpoint orders edgeBits parts memory contents := by
  rw [arenaCapacity, hybridCapacity]
  omega

/-- Resetting the overflow counter keeps the arenas. -/
theorem reset_overflow_slots (region : Region) (capacity : Nat) (memory : Device) :
    arenaSlots region capacity (resetOverflow memory) = arenaSlots region capacity memory := by
  funext bucket
  have not_count : Address.count region bucket ≠ .overflow := nofun
  have not_slot : ∀ index, Address.slot region index ≠ .overflow := nofun
  simp only [arenaSlots, resetOverflow, Memory.read_write_of_ne not_count,
    Memory.read_write_of_ne (not_slot _)]

/-- The state before the rounds on arenas, if no edge was without a slot so far. The
    hand-over's counter does not wrap. -/
theorem before_arenas_spec (sizes : Sizes edgeBits parts)
    (inGraph : ∀ edge side, endpoint edge side < 2 ^ edgeBits) :
    handOverLost endpoint orders edgeBits parts memory contents < 4294967296 ∧
      (handOverLost endpoint orders edgeBits parts memory contents = 0 →
        (∀ round < 3, denseLost endpoint orders edgeBits parts memory contents round = 0) →
        InArena endpoint edgeBits 3 (arenaCapacity endpoint orders edgeBits parts memory contents) 3
          (beforeArenas endpoint orders edgeBits parts memory contents)) := by
  obtain ⟨size, nodes_size, live⟩ := @after_dense_spec endpoint orders edgeBits parts memory contents
    sizes inGraph 3
  have room := @arena_capacity_positive endpoint orders edgeBits parts memory contents
  obtain ⟨holds, counted, bounded⟩ := @hand_over_spec endpoint orders edgeBits parts sizes inGraph 3
    _ room _ size (afterDense endpoint orders edgeBits parts memory contents 3).memory
  refine ⟨bounded, fun none_lost dense_kept => ?_⟩
  have reset : (beforeArenas endpoint orders edgeBits parts memory contents).memory.read .overflow =
      0 := Memory.read_write_self _ _ _
  constructor
  · exact List.length_replicate
  · exact test_replicate_zero _
  · exact nodes_size
  · intro _ bucket small edge
    rw [← live dense_kept]
    exact (iff_of_eq (congrArg (edge ∈ · bucket) (reset_overflow_slots .source _ _))).trans
      (holds none_lost bucket small edge)
  · rw [reset, occupancy_eq]
    have same : arenaSlots (arenaOf 3 3)
          (arenaCapacity endpoint orders edgeBits parts memory contents)
          (beforeArenas endpoint orders edgeBits parts memory contents).memory =
        arenaSlots .source (arenaCapacity endpoint orders edgeBits parts memory contents)
          (handedOver endpoint orders edgeBits parts memory contents) :=
      reset_overflow_slots .source _ _
    rw [same, ← occupancy_eq]
    exact (Nat.le_add_right _ _).trans counted
  · rw [reset]
    decide

/-- A run of batches returns what its rounds leave, or its fuel has run out. -/
theorem hybrid_loop_cases (source : EndpointParams) (few : rounds ≤ 4294967283) (fuel batchStart : Nat)
    (aligned : batchStart < rounds → batchStart % 16 = 3) (inside : batchStart ≤ rounds)
    (state : State) :
    hybridLoop endpoint orders edgeBits source 3 rounds fuel batchStart state =
        some ((List.range' batchStart (rounds - batchStart)).foldl
          (hybridRound endpoint orders edgeBits source 3 rounds) state) ∨
      batchStart + fuel ≤ rounds ∧
        hybridLoop endpoint orders edgeBits source 3 rounds fuel batchStart state = none := by
  induction fuel generalizing batchStart state with
  | zero => exact Or.inr ⟨inside, rfl⟩
  | succ fuel ih =>
    rw [hybridLoop]
    split
    · rename_i some_left
      have start := aligned some_left
      have fits : asU32 (batchStart + 16) = batchStart + 16 := Nat.mod_eq_of_lt (by omega)
      rw [fits]
      obtain ⟨count, batch_end⟩ : ∃ count, min (batchStart + 16) rounds = batchStart + count :=
        ⟨min (batchStart + 16) rounds - batchStart, by omega⟩
      simp only [batch_end, Nat.add_sub_cancel_left]
      have whole : rounds - batchStart = count + (rounds - (batchStart + count)) := by omega
      rcases ih (batchStart + count) (by omega) (by omega)
        ((List.range' batchStart count).foldl (hybridRound endpoint orders edgeBits source 3 rounds)
          state) with returned | ⟨more, endless⟩
      · refine Or.inl ?_
        rw [returned, whole, ← List.range'_append_1, List.foldl_append]
      · exact Or.inr ⟨by omega, endless⟩
    · rename_i done
      refine Or.inl ?_
      rw [Nat.sub_eq_zero_of_le (Nat.le_of_not_lt done), List.range'_zero, List.foldl_nil]

/-- A run of batches does not return if its last batch ends beyond the 32-bit numbers: it
    starts over at round three. -/
theorem hybrid_loop_endless (source : EndpointParams) (many : 4294967283 < rounds) (fuel batchStart : Nat)
    (aligned : batchStart % 16 = 3) (inside : batchStart ≤ 4294967283) (state : State) :
    hybridLoop endpoint orders edgeBits source 3 rounds fuel batchStart state = none := by
  induction fuel generalizing batchStart state with
  | zero => rfl
  | succ fuel ih =>
    rw [hybridLoop, if_pos (Nat.lt_of_le_of_lt inside many)]
    have next : min (asU32 (batchStart + 16)) rounds % 16 = 3 ∧
        min (asU32 (batchStart + 16)) rounds ≤ 4294967283 := by
      rw [asU32]
      rcases Nat.lt_or_eq_of_le inside with earlier | last
      · have no_wrap : (batchStart + 16) % 4294967296 = batchStart + 16 := Nat.mod_eq_of_lt (by omega)
        rw [no_wrap]
        omega
      · rw [last]
        omega
    exact ih _ next.1 next.2 _

/-- The batches of a run after the hand-over return what its rounds leave. -/
theorem arena_loop_cases (few : rounds ≤ 4294967283) (many : 3 < rounds) (fuel : Nat) :
    hybridLoop endpoint orders edgeBits (sourceParams edgeBits parts 3
        (arenaCapacity endpoint orders edgeBits parts memory contents) 0) 3 rounds fuel 3
        (beforeArenas endpoint orders edgeBits parts memory contents) =
        some (afterArenas endpoint orders edgeBits parts memory contents rounds) ∨
      3 + fuel ≤ rounds ∧ hybridLoop endpoint orders edgeBits (sourceParams edgeBits parts 3
        (arenaCapacity endpoint orders edgeBits parts memory contents) 0) 3 rounds fuel 3
        (beforeArenas endpoint orders edgeBits parts memory contents) = none :=
  hybrid_loop_cases _ few fuel 3 (fun _ => rfl) (Nat.le_of_lt many) _

/-- The counter of the rounds on arenas does not wrap, and if no edge was without a slot they
    leave the survivors of all rounds. -/
theorem after_arenas_spec (sizes : Sizes edgeBits parts)
    (inGraph : ∀ edge side, endpoint edge side < 2 ^ edgeBits) (many : 3 < rounds)
    (none_lost : handOverLost endpoint orders edgeBits parts memory contents = 0)
    (dense_kept : DenseKept endpoint orders edgeBits parts memory contents rounds) :
    arenasLost endpoint orders edgeBits parts memory contents rounds < 4294967296 ∧
      (arenasLost endpoint orders edgeBits parts memory contents rounds = 0 →
        liveEdges (afterArenas endpoint orders edgeBits parts memory contents rounds).edges =
          survivors endpoint edgeBits rounds) := by
  rw [DenseKept, Nat.min_eq_right (Nat.le_of_lt many)] at dense_kept
  have start := (before_arenas_spec sizes inGraph).2 none_lost dense_kept
  exact hybrid_rounds_spec sizes.wide inGraph arena_capacity_positive many start

/-! ## The whole run -/

/-- What a run does after its sizes were checked. -/
theorem trim_survivors_eq (power : Nat) (power_of_two : parts = 2 ^ power)
    (inRange : 18 ≤ edgeBits ∧ edgeBits ≤ 32) (fuel : Nat) :
    trimSurvivors endpoint orders edgeBits parts fuel rounds memory contents =
      match (List.range (min rounds 3)).foldlM (checkedDenseRound endpoint orders edgeBits parts)
          (firstState edgeBits memory contents) with
      | .error error => some (.error error)
      | .ok state =>
          if rounds > min rounds 3 then
            continueFromBitmap endpoint orders edgeBits parts fuel (min rounds 3) rounds state
          else some (.ok (members 0 state.edges)) := by
  have accepted : ¬ (¬ (18 ≤ edgeBits ∧ edgeBits ≤ 32) ∨ parts = 0 ∨ ¬ 2 ^ Nat.log2 parts = parts) := by
    rw [power_of_two, Nat.log2_two_pow]
    have positive := Nat.two_pow_pos power
    omega
  rw [trimSurvivors]
  exact if_neg accepted

/-- The enumeration of a bitmap is the ascending list of its live edges. -/
theorem listed_survivors (edges : Bitmap) (live : Set Nat) (same : liveEdges edges = live) :
    (members 0 edges).Pairwise (· < ·) ∧ ∀ edge, edge ∈ members 0 edges ↔ edge ∈ live := by
  refine ⟨members_ascending edges 0 (by decide), fun edge => ?_⟩
  rw [mem_live, ← same]
  rfl

section

variable (power : Nat) (power_of_two : parts = 2 ^ power) (inRange : 18 ≤ edgeBits ∧ edgeBits ≤ 32)

include power_of_two inRange

/-- A run that sees edges without a slot before the rounds on arenas ends with an error. -/
theorem refused_early_refuses (bounded :
      handOverLost endpoint orders edgeBits parts memory contents < 4294967296)
    (early : RefusedEarly endpoint orders edgeBits parts memory contents rounds) (fuel : Nat) :
    ∃ reason, trimSurvivors endpoint orders edgeBits parts fuel rounds memory contents =
      some (.error (.searchLimit reason)) := by
  rw [trim_survivors_eq power power_of_two inRange]
  rcases @checked_dense_rounds endpoint orders edgeBits parts memory contents (min rounds 3) with
    ⟨reason, failed, _⟩ | ⟨passed, none_seen⟩
  · exact ⟨reason, by rw [failed]⟩
  · rcases early with ⟨round, inside, lost⟩ | ⟨many, lost⟩
    · exact absurd (none_seen round inside) lost
    · have three : min rounds 3 = 3 := Nat.min_eq_right (Nat.le_of_lt many)
      rw [three] at passed ⊢
      have seen : overflowCount (handedOver endpoint orders edgeBits parts memory contents) ≠ 0 := by
        show asU32 (handOverLost endpoint orders edgeBits parts memory contents) ≠ 0
        rw [asU32, Nat.mod_eq_of_lt bounded]
        exact lost
      refine ⟨"hybrid seed overflowed by " ++ toString (overflowCount
        (handedOver endpoint orders edgeBits parts memory contents)) ++ " edges", ?_⟩
      rw [passed]
      simp only [gt_iff_lt, if_pos many, continueFromBitmap]
      exact if_pos seen

/-- A run that sees none goes on to the rounds on arenas, if there are any. -/
theorem not_refused_early (early : ¬ RefusedEarly endpoint orders edgeBits parts memory contents rounds)
    (fuel : Nat) :
    trimSurvivors endpoint orders edgeBits parts fuel rounds memory contents =
      if 3 < rounds then
        continueFromBitmap endpoint orders edgeBits parts fuel 3 rounds
          (afterDense endpoint orders edgeBits parts memory contents 3)
      else some (.ok (members 0
        (afterDense endpoint orders edgeBits parts memory contents rounds).edges)) := by
  rw [trim_survivors_eq power power_of_two inRange]
  rcases @checked_dense_rounds endpoint orders edgeBits parts memory contents (min rounds 3) with
    ⟨_, _, lost⟩ | ⟨passed, _⟩
  · exact absurd (Or.inl lost) early
  · rw [passed]
    by_cases many : 3 < rounds
    · have three : min rounds 3 = 3 := Nat.min_eq_right (Nat.le_of_lt many)
      simp only [three, gt_iff_lt, if_pos many]
    · have all : min rounds 3 = rounds := Nat.min_eq_left (Nat.le_of_not_lt many)
      simp only [all, gt_iff_lt, if_neg many, if_neg (Nat.lt_irrefl rounds)]

/-- A run that sees none and has few enough rounds returns what the rounds on arenas leave,
    or its fuel has run out; with too many rounds it does not return. -/
theorem arenas_result (early : ¬ RefusedEarly endpoint orders edgeBits parts memory contents rounds)
    (many : 3 < rounds) (fuel : Nat) :
    (rounds ≤ 4294967283 ∧
      (trimSurvivors endpoint orders edgeBits parts fuel rounds memory contents =
          some (arenasResult endpoint orders edgeBits parts memory contents rounds) ∨
        fuel < rounds ∧
          trimSurvivors endpoint orders edgeBits parts fuel rounds memory contents = none)) ∨
    4294967283 < rounds ∧
      trimSurvivors endpoint orders edgeBits parts fuel rounds memory contents = none := by
  have none_lost : handOverLost endpoint orders edgeBits parts memory contents = 0 := by
    by_contra lost
    exact early (Or.inr ⟨many, lost⟩)
  have passes : ¬ overflowCount (handedOver endpoint orders edgeBits parts memory contents) ≠ 0 := by
    show ¬ asU32 (handOverLost endpoint orders edgeBits parts memory contents) ≠ 0
    rw [none_lost]
    decide
  have starts := @not_refused_early endpoint orders edgeBits parts rounds memory contents power
    power_of_two inRange early fuel
  rw [if_pos many, continueFromBitmap] at starts
  replace starts := starts.trans (if_neg passes)
  simp only at starts
  -- The loop either does not end or leaves the state of the last round.
  have stops : hybridLoop endpoint orders edgeBits (sourceParams edgeBits parts 3
      (arenaCapacity endpoint orders edgeBits parts memory contents) 0) 3 rounds fuel 3
      (beforeArenas endpoint orders edgeBits parts memory contents) = none →
      trimSurvivors endpoint orders edgeBits parts fuel rounds memory contents = none := by
    intro endless
    refine starts.trans ?_
    split
    · rfl
    · rename_i state ended
      cases endless.symm.trans ended
  have leaves : ∀ state, hybridLoop endpoint orders edgeBits (sourceParams edgeBits parts 3
      (arenaCapacity endpoint orders edgeBits parts memory contents) 0) 3 rounds fuel 3
      (beforeArenas endpoint orders edgeBits parts memory contents) = some state →
      trimSurvivors endpoint orders edgeBits parts fuel rounds memory contents =
        if overflowCount state.memory ≠ 0 then some (.error (.searchLimit
          ("hybrid loop overflowed by " ++ toString (overflowCount state.memory) ++ " edges")))
        else some (.ok (members 0 state.edges)) := by
    intro state returned
    refine starts.trans ?_
    split
    · rename_i endless
      cases returned.symm.trans endless
    · rename_i other ended
      rw [Option.some.inj (returned.symm.trans ended)]
  rcases Nat.lt_or_ge 4294967283 rounds with more | few
  · exact Or.inr ⟨more, stops (hybrid_loop_endless _ more fuel 3 rfl (by decide) _)⟩
  · refine Or.inl ⟨few, ?_⟩
    rcases @arena_loop_cases endpoint orders edgeBits parts rounds memory contents few many fuel
      with returned | ⟨short, endless⟩
    · refine Or.inl ?_
      rw [leaves _ returned, arenasResult]
      exact (apply_ite some _ _ _).symm
    · exact Or.inr ⟨by omega, stops endless⟩

end

/-! ## Exact or refused -/

/-- What the host sees early has overflowed. -/
theorem overflowed_of_early (early : RefusedEarly endpoint orders edgeBits parts memory contents rounds) :
    Overflowed endpoint orders edgeBits parts memory contents rounds := by
  rcases early with ⟨round, inside, seen⟩ | ⟨many, lost⟩
  · refine Or.inl ⟨round, inside, fun none => seen ?_⟩
    rw [none]
    rfl
  · exact Or.inr ⟨many, Or.inl lost⟩

section

variable (power : Nat) (power_of_two : parts = 2 ^ power) (inRange : 18 ≤ edgeBits ∧ edgeBits ≤ 32)
  (two : 2 ≤ parts) (most : parts ≤ 2 ^ (edgeBits - 18))
  (inGraph : ∀ edge side, endpoint edge side < 2 ^ edgeBits)

include power_of_two inRange two most inGraph

/-- A run that sees edges without a slot before the rounds on arenas refuses. -/
theorem exact_or_refuses_early
    (early : RefusedEarly endpoint orders edgeBits parts memory contents rounds) :
    ExactOrRefuses endpoint orders edgeBits parts memory contents rounds := by
  have bounded := (@before_arenas_spec endpoint orders edgeBits parts memory contents
    (sizes_of_power power_of_two inRange two most) inGraph).1
  obtain ⟨reason, refused⟩ := refused_early_refuses power power_of_two inRange bounded early 0
  exact ⟨0, _, refused, Or.inl ⟨⟨reason, rfl⟩, overflowed_of_early early⟩⟩

/-- A run that left no edge without a slot before the rounds on arenas, and has not too many of
    them, returns the exact survivors or sees an edge without a slot in these rounds. -/
theorem exact_or_refuses_late (few : rounds ≤ 4294967283)
    (early : ¬ RefusedEarly endpoint orders edgeBits parts memory contents rounds)
    (dense_kept : DenseKept endpoint orders edgeBits parts memory contents rounds) :
    ExactOrRefuses endpoint orders edgeBits parts memory contents rounds := by
  have sizes := sizes_of_power power_of_two inRange two most
  by_cases many : 3 < rounds
  · have none_lost : handOverLost endpoint orders edgeBits parts memory contents = 0 := by
      by_contra lost
      exact early (Or.inr ⟨many, lost⟩)
    obtain ⟨unwrapped, live⟩ := after_arenas_spec sizes inGraph many none_lost dense_kept
    rcases @arenas_result endpoint orders edgeBits parts rounds memory contents power power_of_two
      inRange early many rounds with ⟨_, ended | ⟨short, _⟩⟩ | ⟨more, _⟩
    · refine ⟨rounds, _, ended, ?_⟩
      rw [arenasResult, asU32, Nat.mod_eq_of_lt unwrapped]
      by_cases lost : arenasLost endpoint orders edgeBits parts memory contents rounds = 0
      · obtain ⟨ascending, members⟩ := listed_survivors _ _ (live lost)
        rw [if_neg (not_not.mpr lost)]
        refine Or.inr ⟨_, rfl, ascending, members, ?_⟩
        rintro (⟨round, inside, some_lost⟩ | ⟨_, some_lost | some_lost⟩)
        · exact some_lost (dense_kept round inside)
        · exact some_lost none_lost
        · exact some_lost lost
      · rw [if_pos lost]
        exact Or.inl ⟨⟨_, rfl⟩, Or.inr ⟨many, Or.inr lost⟩⟩
    · exact absurd short (Nat.lt_irrefl _)
    · exact absurd few (Nat.not_le.mpr more)
  · have goes_on := not_refused_early power power_of_two inRange early
    simp only [if_neg many] at goes_on
    have all : min rounds 3 = rounds := Nat.min_eq_left (Nat.le_of_not_lt many)
    have live := (after_dense_spec sizes inGraph rounds).2.2 (by rwa [DenseKept, all] at dense_kept)
    obtain ⟨ascending, members⟩ := listed_survivors _ _ live
    refine ⟨0, _, goes_on 0, Or.inr ⟨_, rfl, ascending, members, ?_⟩⟩
    rintro (⟨round, inside, some_lost⟩ | ⟨more, _⟩)
    · exact some_lost (dense_kept round inside)
    · exact many more

omit two most inGraph in
/-- A run with too many rounds that is not refused before the rounds on arenas does not return. -/
theorem endless_run (more : 4294967283 < rounds)
    (early : ¬ RefusedEarly endpoint orders edgeBits parts memory contents rounds) :
    ¬ ExactOrRefuses endpoint orders edgeBits parts memory contents rounds := by
  rintro ⟨fuel, result, returned, _⟩
  rcases arenas_result power power_of_two inRange early (by omega) fuel with ⟨few, _⟩ | ⟨_, endless⟩
  · exact absurd few (Nat.not_le.mpr more)
  · rw [endless] at returned
    cases returned

end

end CuckatooMiner.Metal
