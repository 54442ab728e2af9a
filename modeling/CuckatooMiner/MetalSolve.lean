import Mathlib
import CuckatooMiner.MetalExact
import CuckatooMiner.SleanLayout
import CuckatooMiner.Verdict

/-!
# The native Metal solver

The solver reads the cancel flag before each dense round, before each batch of rounds on
arenas and before the search. Where it is not stopped, its trim is the one without a flag: a
cancelled run returns no list at all, and any other returns what it would have returned. With
exact lists or refusals every verdict is honest, and a trim that met a limit is inconclusive:
the graph asks some bucket or dead list for more slots than it has.

Settings on which the kernels cannot rely are left out by `Suited`, as are graphs whose counters
or group numbers could wrap. The flag may be raised and lowered at will. Nothing is said of the
time of a solve or of the memory and the compiler of the device.
-/

namespace CuckatooMiner.MetalSolve

open Metal Outcome Polling Solver Verdict
open D2 (findCycleD2)
open GpuVerdict (GroupsFit conclude)
open LeanRound (Bitmap)
open PackedBits (members)
open PeelTrimmed (TooMany peel peel_gives)
open SipHash (endpoint)
open SleanLayout (GpuWgpuConfig)

/-- Why a solve fails: with an error of the solver, since a count of the peeler drops below zero, or
    since the given fuel did not suffice. -/
inductive Fault
  | solver (error : SolveError)
  | underflow
  | unfinished
deriving DecidableEq, Repr

/-! ## Trimming under a flag -/

section Trim

variable (endpoint : Nat → Nat → Nat) (orders : Orders) (edgeBits parts : Nat)

/-- Dense rounds, each after a reading of the flag. -/
def denseRounds (count : Nat) (state : State) : Task Fault State :=
  (List.range count).foldlM (fun state round => do
    .stopIfRaised
    Task.step ((checkedDenseRound endpoint orders edgeBits parts state round).mapError .solver)) state

/-- Rounds in batches of sixteen, each batch after a reading of the flag. -/
def hybridLoop (source : EndpointParams) (startRound rounds : Nat) : Nat → Nat → State → Task Fault State
  | 0, _, _ => Task.step (.error .unfinished)
  | fuel + 1, batchStart, state =>
      if batchStart < rounds then do
        .stopIfRaised
        let batchEnd := min (asU32 (batchStart + 16)) rounds
        hybridLoop source startRound rounds fuel batchEnd
          ((List.range' batchStart (batchEnd - batchStart)).foldl
            (hybridRound endpoint orders edgeBits source startRound rounds) state)
      else return state

/-- Continue on arenas from a bitmap. -/
def continueFromBitmap (fuel startRound rounds : Nat) (state : State) : Task Fault (List Nat) := do
  let capacity := hybridCapacity edgeBits (aliveCount state.edges)
  let memory := handOver endpoint orders edgeBits parts startRound capacity state.edges state.memory
  let count := overflowCount memory
  if count ≠ 0 then
    Task.step (.error (.solver (.searchLimit ("hybrid seed overflowed by " ++ toString count ++
      " edges"))))
  else do
    let source := sourceParams edgeBits parts startRound capacity 0
    let survivors := List.replicate (wordCount edgeBits) 0#32
    let state ← hybridLoop endpoint orders edgeBits source startRound rounds fuel startRound
      { state with memory := resetOverflow memory, edges := survivors }
    let count := overflowCount state.memory
    if count ≠ 0 then
      Task.step (.error (.solver (.searchLimit ("hybrid loop overflowed by " ++ toString count ++
        " edges"))))
    else return members 0 state.edges

/-- Trim all edges of a graph for some rounds. Readings of the cancel flag are part of it, and a
    run that has used up its fuel is a fault of its own. Failures of the device are left out. -/
def trimSurvivors (fuel rounds : Nat) (memory : Device) (contents : Nat → BitVec 32) :
    Task Fault (List Nat) := do
  if ¬ (18 ≤ edgeBits ∧ edgeBits ≤ 32) ∨ parts = 0 ∨ ¬ 2 ^ Nat.log2 parts = parts then
    Task.step (.error (.solver (.invalidConfig
      "native Metal requires edge_bits 18..=32 and power-of-two parts")))
  else do
    let count := min rounds 3
    let state ← denseRounds endpoint orders edgeBits parts count (firstState edgeBits memory contents)
    if rounds > count then
      continueFromBitmap endpoint orders edgeBits parts fuel count rounds state
    else return members 0 state.edges

end Trim

section Refines

variable {endpoint : Nat → Nat → Nat} {orders : Orders} {edgeBits parts : Nat} {flag : Nat → Bool}

/-- A task comes to what a computation without a flag comes to. A count that drops below zero is
    no fault of a trim. -/
def Agrees (plain : Option (Except SolveError (List Nat))) (fault : Fault) : Prop :=
  match fault with
  | .solver error => plain = some (.error error)
  | .underflow => False
  | .unfinished => plain = none

/-- The batches end where those without a flag do. -/
theorem hybrid_loop_ends (source : EndpointParams) (startRound rounds fuel batchStart : Nat)
    (state : State) :
    Ends flag (hybridLoop endpoint orders edgeBits source startRound rounds fuel batchStart state)
      (fun last => Metal.hybridLoop endpoint orders edgeBits source startRound rounds fuel batchStart
        state = some last)
      (fun fault => fault = .unfinished ∧ Metal.hybridLoop endpoint orders edgeBits source startRound
        rounds fuel batchStart state = none) := by
  induction fuel generalizing batchStart state with
  | zero => exact ends_step (gives_error ⟨rfl, rfl⟩)
  | succ fuel ih =>
    rw [hybridLoop, Metal.hybridLoop]
    by_cases more : batchStart < rounds
    · rw [if_pos more, if_pos more]
      exact ends_stop_then (ih _ _)
    · rw [if_neg more, if_neg more]
      exact ends_pure rfl

/-- The rounds on arenas end where those without a flag do. -/
theorem continue_from_bitmap_ends (fuel startRound rounds : Nat) (state : State) :
    Ends flag (continueFromBitmap endpoint orders edgeBits parts fuel startRound rounds state)
      (fun listed => Metal.continueFromBitmap endpoint orders edgeBits parts fuel startRound rounds
        state = some (.ok listed))
      (Agrees (Metal.continueFromBitmap endpoint orders edgeBits parts fuel startRound rounds
        state)) := by
  rw [continueFromBitmap, Metal.continueFromBitmap]
  dsimp only
  split
  · exact ends_step (gives_error rfl)
  · refine ends_bind (Ends.weaken (hybrid_loop_ends _ _ _ _ _ _) (fun _ returned => returned) ?_) ?_
    · rintro _ ⟨rfl, endless⟩
      rw [endless]
      rfl
    · intro last returned
      rw [returned]
      dsimp only
      split
      · exact ends_step (gives_error rfl)
      · exact ends_pure rfl

/-- A run that is not stopped comes to what a run without a flag comes to. -/
theorem trim_survivors_ends (fuel rounds : Nat) (memory : Device) (contents : Nat → BitVec 32) :
    Ends flag (trimSurvivors endpoint orders edgeBits parts fuel rounds memory contents)
      (fun listed => Metal.trimSurvivors endpoint orders edgeBits parts fuel rounds memory contents =
        some (.ok listed))
      (Agrees (Metal.trimSurvivors endpoint orders edgeBits parts fuel rounds memory contents)) := by
  rw [trimSurvivors, Metal.trimSurvivors]
  split
  · exact ends_step (gives_error rfl)
  · dsimp only
    refine ends_bind (Ends.weaken (ends_polled Fault.solver _ _ _) (fun _ ended => ended) ?_) ?_
    · rintro _ ⟨raised, rfl, failed⟩
      rw [failed]
      rfl
    · intro state ended
      rw [ended]
      dsimp only
      split
      · exact continue_from_bitmap_ends _ _ _ _
      · exact ends_pure rfl

/-! ## Enough fuel -/

variable {rounds : Nat} {memory : Device} {contents : Nat → BitVec 32}

/-- More fuel does not change what batches leave. -/
theorem hybrid_loop_more (source : EndpointParams) (startRound fuel more batchStart : Nat)
    (state last : State) (less : fuel ≤ more)
    (ended : Metal.hybridLoop endpoint orders edgeBits source startRound rounds fuel batchStart
      state = some last) :
    Metal.hybridLoop endpoint orders edgeBits source startRound rounds more batchStart state =
      some last := by
  induction fuel generalizing more batchStart state with
  | zero => cases ended
  | succ fuel ih =>
    obtain ⟨most, rfl⟩ := Nat.exists_eq_add_one.mpr (Nat.lt_of_lt_of_le (Nat.succ_pos fuel) less)
    rw [Metal.hybridLoop] at ended ⊢
    by_cases some_left : batchStart < rounds
    · rw [if_pos some_left] at ended ⊢
      exact ih most _ _ (Nat.le_of_succ_le_succ less) ended
    · rw [if_neg some_left] at ended ⊢
      exact ended

/-- More fuel does not change what the rounds on arenas come to. -/
theorem continue_from_bitmap_more {fuel more startRound : Nat} {state : State} (less : fuel ≤ more)
    {result : Except SolveError (List Nat)}
    (ended : Metal.continueFromBitmap endpoint orders edgeBits parts fuel startRound rounds state =
      some result) :
    Metal.continueFromBitmap endpoint orders edgeBits parts more startRound rounds state =
      some result := by
  rw [Metal.continueFromBitmap] at ended ⊢
  dsimp only at ended ⊢
  split at ended
  · rename_i lost
    rw [if_pos lost]
    exact ended
  · rename_i none_lost
    rw [if_neg none_lost]
    split at ended
    · cases ended
    · rename_i last looped
      rw [hybrid_loop_more _ _ fuel more _ _ _ less looped]
      exact ended

/-- More fuel does not change what a run comes to. -/
theorem trim_survivors_more {fuel more : Nat} (less : fuel ≤ more)
    {result : Except SolveError (List Nat)}
    (ended : Metal.trimSurvivors endpoint orders edgeBits parts fuel rounds memory contents =
      some result) :
    Metal.trimSurvivors endpoint orders edgeBits parts more rounds memory contents = some result := by
  rw [Metal.trimSurvivors] at ended ⊢
  split at ended
  · rename_i refused
    rw [if_pos refused]
    exact ended
  · rename_i accepted
    rw [if_neg accepted]
    dsimp only at ended ⊢
    split at ended
    · exact ended
    · by_cases arenas : rounds > min rounds 3
      · rw [if_pos arenas] at ended ⊢
        exact continue_from_bitmap_more less ended
      · rw [if_neg arenas] at ended ⊢
        exact ended

section

variable (power : Nat) (power_of_two : parts = 2 ^ power) (inRange : 18 ≤ edgeBits ∧ edgeBits ≤ 32)
  (two : 2 ≤ parts) (most : parts ≤ 2 ^ (edgeBits - 18))
  (inGraph : ∀ edge side, endpoint edge side < 2 ^ edgeBits) (few : rounds ≤ 4294967283)

include power_of_two inRange two most inGraph few

/-- As much fuel as rounds is enough, unless there are too many rounds. -/
theorem trim_survivors_returns {fuel : Nat} (enough : rounds ≤ fuel) :
    Metal.trimSurvivors endpoint orders edgeBits parts fuel rounds memory contents ≠ none := by
  have bounded := (@before_arenas_spec endpoint orders edgeBits parts memory contents
    (sizes_of_power power_of_two inRange two most) inGraph).1
  by_cases early : RefusedEarly endpoint orders edgeBits parts memory contents rounds
  · obtain ⟨reason, refused⟩ := refused_early_refuses power power_of_two inRange bounded early fuel
    rw [refused]
    exact Option.some_ne_none _
  · by_cases many : 3 < rounds
    · rcases arenas_result power power_of_two inRange early many fuel with
        ⟨_, ended | ⟨short, _⟩⟩ | ⟨more, _⟩
      · rw [ended]
        exact Option.some_ne_none _
      · omega
      · omega
    · rw [not_refused_early power power_of_two inRange early fuel, if_neg many]
      exact Option.some_ne_none _

/-- A run comes to a limit of a graph that does not fit, or to the exact list, if no counter of a
    dense round wraps. -/
theorem trim_survivors_exact {fuel : Nat} (unwrapped : Unwrapped endpoint edgeBits parts rounds)
    {result : Except SolveError (List Nat)}
    (ended : Metal.trimSurvivors endpoint orders edgeBits parts fuel rounds memory contents =
      some result) :
    (∃ reason, result = .error (.searchLimit reason)) ∧ ¬ Fits endpoint edgeBits parts rounds ∨
      ∃ listed, result = .ok listed ∧ listed.Nodup ∧
        ∀ edge, edge ∈ listed ↔ edge ∈ survivors endpoint edgeBits rounds := by
  obtain ⟨other, final, returned, outcome⟩ := @exact_or_refuses_of_unwrapped endpoint orders edgeBits
    parts rounds memory contents power power_of_two inRange two most inGraph unwrapped (Or.inl few)
  -- Both runs come to the same with the fuel of both.
  have same := (trim_survivors_more (Nat.le_max_left fuel other) ended).symm.trans
    (trim_survivors_more (Nat.le_max_right fuel other) returned)
  obtain rfl : result = final := Option.some.inj same
  rcases outcome with ⟨refused, lost⟩ | ⟨listed, found, ascending, members, _⟩
  · exact Or.inl ⟨refused,
      (overflowed_iff (sizes_of_power power_of_two inRange two most) inGraph).mp lost⟩
  · exact Or.inr ⟨listed, found, ascending.imp Nat.ne_of_lt, members⟩

end

end Refines

/-! ## Solving -/

/-- A solver with its settings. -/
structure GpuMetalSolver where
  config : GpuWgpuConfig
deriving DecidableEq, Repr

/-- What the solver can solve. -/
def capabilities : BackendCapabilities := ⟨18, 32, 42⟩

section Solve

variable (solver : GpuMetalSolver) (orders : Orders) (memory : Device) (contents : Nat → BitVec 32)

/-- Trim, peel and search. A trim that meets a limit is inconclusive. -/
def verdict (graph : GraphParams) (fuel : Nat) (flag : Nat → Bool) : Except Fault SolveOutcome :=
  match trimSurvivors (endpoint graph.keys graph.edgeBits) orders graph.edgeBits
      solver.config.sleanParts fuel graph.rounds memory contents flag 0 with
  | .ok (some survivors, clock) => do
      let survivors ← peel .solver .underflow graph survivors
      if flag clock then .ok .cancelled
      else (conclude (findCycleD2 graph survivors)).mapError .solver
  | .ok (none, _) => .ok .cancelled
  | .error (.solver (.searchLimit reason)) => .ok (.inconclusive reason)
  | .error fault => .error fault

/-- Solve a request. -/
def solve (blake2b : List UInt8 → Digest) (request : SolveRequest) (fuel : Nat)
    (flag : Nat → Bool) : Except Fault SolveOutcome := do
  (validateRequest request capabilities).mapError .solver
  verdict solver orders memory contents (request.graphParams blake2b) fuel flag

end Solve

section Honest

variable {solver : GpuMetalSolver} {orders : Orders} {memory : Device} {contents : Nat → BitVec 32}
  {flag : Nat → Bool}

/-- A limit of a solve: the graph asks a bucket or a dead list for more slots than it has, or the
    search of the core meets its limit. -/
def Limited (solver : GpuMetalSolver) (graph : GraphParams) (reason : String) : Prop :=
  ¬ Fits (endpoint graph.keys graph.edgeBits) graph.edgeBits solver.config.sleanParts graph.rounds ∨
    CoreLimit graph reason

/-- A reading of the flag that a solve makes: one of its trim, or the one after its survivors were
    peeled. -/
def Made (solver : GpuMetalSolver) (orders : Orders) (memory : Device) (contents : Nat → BitVec 32)
    (graph : GraphParams) (fuel : Nat) (flag : Nat → Bool) (clock : Nat) : Prop :=
  ∃ found later, trimSurvivors (endpoint graph.keys graph.edgeBits) orders graph.edgeBits
      solver.config.sleanParts fuel graph.rounds memory contents flag 0 = .ok (found, later) ∧
    (clock < later ∨ found.isSome ∧ clock = later)

/-- What a solve relies on: a power of two of at least two parts that are not smaller than a
    dead list, no more rounds than the batches can count, counters of dense rounds that cannot
    wrap, and few enough groups to be numbered. Up to thirty-one edge bits the last two hold of
    every graph. The source checks only that the parts are a power of two. -/
structure Suited (solver : GpuMetalSolver) (graph : GraphParams) : Prop where
  parts : ∃ power, solver.config.sleanParts = 2 ^ power
  two : 2 ≤ solver.config.sleanParts
  most : solver.config.sleanParts ≤ 2 ^ (graph.edgeBits - 18)
  few : graph.rounds ≤ 4294967283
  unwrapped : Unwrapped (endpoint graph.keys graph.edgeBits) graph.edgeBits solver.config.sleanParts
    graph.rounds
  numbered : GroupsFit graph.keys graph.edgeBits graph.rounds

/-- A verdict is honest, or the survivors are too many to be peeled. -/
theorem verdict_gives {graph : GraphParams} (suited : Suited solver graph)
    (inRange : 18 ≤ graph.edgeBits ∧ graph.edgeBits ≤ 32) (cycle : 1 ≤ graph.cycleLength) {fuel : Nat}
    (enough : graph.rounds ≤ fuel) :
    Gives (verdict solver orders memory contents graph fuel flag)
      (Honest (Made solver orders memory contents graph fuel flag) flag graph.keys graph.edgeBits
        graph.cycleLength (Limited solver graph))
      (fun fault => ∃ error, fault = .solver error ∧
        TooMany (survivors (endpoint graph.keys graph.edgeBits) graph.edgeBits graph.rounds).ncard
          error) := by
  obtain ⟨power, power_of_two⟩ := suited.parts
  have inGraph : ∀ edge side, endpoint graph.keys graph.edgeBits edge side < 2 ^ graph.edgeBits :=
    fun edge side => SipHash.endpoint_lt graph.keys graph.edgeBits edge side inRange.2
  have trims := @trim_survivors_ends (endpoint graph.keys graph.edgeBits) orders graph.edgeBits
    solver.config.sleanParts flag fuel graph.rounds memory contents
  have exact_list {result : Except SolveError (List Nat)} := @trim_survivors_exact
    (endpoint graph.keys graph.edgeBits) orders graph.edgeBits solver.config.sleanParts graph.rounds
    memory contents power power_of_two inRange suited.two suited.most inGraph suited.few fuel
    suited.unwrapped result
  rw [verdict]
  cases trimmed : trimSurvivors (endpoint graph.keys graph.edgeBits) orders graph.edgeBits
      solver.config.sleanParts fuel graph.rounds memory contents flag 0 with
  | error fault =>
    have agrees := trims.failed 0 fault trimmed
    cases fault with
    | unfinished =>
      exact absurd agrees (trim_survivors_returns power power_of_two inRange suited.two suited.most
        inGraph suited.few enough)
    | underflow => exact agrees.elim
    | solver error =>
      rcases exact_list agrees with ⟨⟨reason, limited⟩, tight⟩ | ⟨_, listed, _⟩
      · cases limited
        exact gives_ok (Or.inl tight)
      · cases listed
  | ok pair =>
    obtain ⟨found, clock⟩ := pair
    cases found with
    | none =>
      obtain ⟨last, rfl, raised⟩ := trims.stopped 0 clock trimmed
      exact gives_ok ⟨last, ⟨none, _, trimmed, Or.inl (Nat.lt_succ_self last)⟩, raised⟩
    | some listed =>
      have agrees := trims.returned 0 listed clock trimmed
      rcases exact_list agrees with ⟨⟨_, limited⟩, _⟩ | ⟨_, same, unique, members⟩
      · cases limited
      · cases same
        have numbered := suited.numbered.numbered inRange.2 (Nat.le_refl _)
        refine gives_bind (peel_gives inRange.2 unique members numbered) fun peeled core => ?_
        split
        · rename_i raised
          exact gives_ok ⟨clock, ⟨some listed, clock, trimmed, Or.inr ⟨rfl, rfl⟩⟩, raised⟩
        · apply gives_map_error
          have searched := conclude_gives ⟨Nat.le_trans (by decide) inRange.1, inRange.2⟩ cycle core.1
            core.2 (Made solver orders memory contents graph fuel flag) flag fun _ => False
          refine ⟨fun outcome ended => ?_, fun error failed => (searched.failed error failed).elim⟩
          exact (searched.returned outcome ended).weaken (fun _ made => made) fun _ => Or.inr

/-- However the cancel flag is raised and whatever the orders of the threads, a solve comes to an
    honest verdict: a proof verifies, no proof of the whole graph verifies where none was found, a
    cancelled solve has made a reading that found the flag raised, and an inconclusive one has met
    a limit: the graph asks a bucket or a dead list for more slots than it has, or the search of the
    core exceeds its limit. It fails only since the request is refused or the survivors are too
    many.

    The settings and the graph are those on which the kernels can rely: a power of two of at least
    two parts that are not smaller than a dead list, at most 4294967283 rounds, and in graphs of
    thirty-two edge bits counters that cannot wrap and groups that can be numbered. -/
theorem metal_solve_honest (solver : GpuMetalSolver) (orders : Orders) (memory : Device)
    (contents : Nat → BitVec 32) (blake2b : List UInt8 → Digest) (request : SolveRequest) (fuel : Nat)
    (flag : Nat → Bool) (suited : Suited solver (request.graphParams blake2b))
    (enough : request.rounds ≤ fuel) :
    Gives (solve solver orders memory contents blake2b request fuel flag)
      (fun outcome => Valid request capabilities ∧
        Honest (Made solver orders memory contents (request.graphParams blake2b) fuel flag) flag
          (request.sipKeys blake2b) request.edgeBits request.cycleLength
          (Limited solver (request.graphParams blake2b)) outcome)
      (fun fault => ∃ error, fault = .solver error ∧
        (validateRequest request capabilities = .error error ∨
          TooMany (survivors (endpoint (request.sipKeys blake2b) request.edgeBits) request.edgeBits
            request.rounds).ncard error)) := by
  apply validated_gives
  · intro error refused
    exact ⟨error, rfl, Or.inl refused⟩
  · intro valid
    obtain ⟨returned, failed⟩ := verdict_gives suited valid.supported
      (Nat.le_trans (by decide) valid.cycleLength.1) enough
    refine ⟨returned, fun fault fell => ?_⟩
    obtain ⟨error, same, many⟩ := failed fault fell
    exact ⟨error, same, Or.inr many⟩

/-- A request for ninety rounds in four parts, with the flag raised at the seventh reading. -/
theorem metal_four_parts_solve :
    Gives (solve ⟨⟨.slean, 4, 32⟩⟩ orderly ⟨fun _ => 0⟩ (fun _ => 0#32)
        (fun _ => Vector.replicate 32 0) ⟨[0], 0#64, true, 24, 42, 90⟩ 90 fun clock => decide (7 ≤ clock))
      (fun outcome => Valid ⟨[0], 0#64, true, 24, 42, 90⟩ capabilities ∧
        Honest (Made ⟨⟨.slean, 4, 32⟩⟩ orderly ⟨fun _ => 0⟩ (fun _ => 0#32)
            ⟨deriveKeys (fun _ => Vector.replicate 32 0) [0] 0#64, 24, 42, 90⟩ 90
            fun clock => decide (7 ≤ clock))
          (fun clock => decide (7 ≤ clock)) (deriveKeys (fun _ => Vector.replicate 32 0) [0] 0#64)
          24 42 (Limited ⟨⟨.slean, 4, 32⟩⟩
            ⟨deriveKeys (fun _ => Vector.replicate 32 0) [0] 0#64, 24, 42, 90⟩) outcome)
      (fun fault => ∃ error, fault = .solver error ∧
        (validateRequest ⟨[0], 0#64, true, 24, 42, 90⟩ capabilities = .error error ∨
          TooMany (survivors (endpoint (deriveKeys (fun _ => Vector.replicate 32 0) [0] 0#64) 24) 24
            90).ncard error)) :=
  metal_solve_honest ⟨⟨.slean, 4, 32⟩⟩ orderly ⟨fun _ => 0⟩ (fun _ => 0#32) (fun _ => Vector.replicate 32 0)
    ⟨[0], 0#64, true, 24, 42, 90⟩ 90 _
    ⟨⟨2, rfl⟩, by decide, by decide, by decide, Or.inl (by decide), Or.inl (by decide)⟩ (by decide)

end Honest

end CuckatooMiner.MetalSolve
