import Mathlib
import CuckatooMiner.Verdict
import CuckatooMiner.WgpuTrimExact

/-!
# The GPU solver

A solve validates its request and asks for a verdict after at most 128 rounds; if that one is
inconclusive, it asks for one after all rounds. With the kernels in place of an assumed trim,
every verdict is honest for all orders of the threads and all ways in which the flag is
raised, and a solve fails only since its request, its graph or its adapter is refused.

This is about settings, graphs and flags on which the kernels can rely, `Suited` and
`NeverReset`, and about graphs whose groups can be numbered after the early rounds. Outside them
the trim or the peeler may go wrong without a word. The time of a solve, the memory of the device
and its shader compiler are not part of the model.
-/

namespace CuckatooMiner.WgpuSolve

open Outcome Polling Solver Verdict WgpuTrim
open D2 (findCycleD2)
open FineRound (u32Modulus workgroupSize)
open GpuVerdict (GroupsFit capabilities conclude earlyVerdictRound)
open Peel (u32Max)
open PeelTrimmed (ListsCore Numbered TooMany peel peel_gives)
open SleanLayout (GpuWgpuSolver sleanSolver)
open TrimRun (survivors)

section Solve

variable (solver : GpuWgpuSolver) (adapter : Adapter)

/-- Trim, peel and search. -/
def verdictAtRound (request : GraphParams) (world : World request.edgeBits) (rounds : Nat)
    (liveWork : Bool) (turns : Nat) : Task Fault SolveOutcome := do
  let survivors ← trim solver adapter (graphEndpoints request.keys request.edgeBits) request world
    rounds liveWork turns
  let survivors ← Task.step (peel .solver .underflow request survivors)
  .stopIfRaised
  Task.step ((conclude (findCycleD2 request survivors)).mapError .solver)

/-- An early verdict, and one after all rounds when the early one is inconclusive. What is open
    in a run is given by its number of rounds. -/
def verdicts (params : GraphParams) (worlds : Nat → World params.edgeBits) (liveWork : Bool)
    (turns : Nat) : Task Fault SolveOutcome := do
  let earlyRound := min params.rounds earlyVerdictRound
  match ← verdictAtRound solver adapter params (worlds earlyRound) earlyRound liveWork turns with
  | .inconclusive reason =>
      if params.rounds > earlyRound then
        verdictAtRound solver adapter params (worlds params.rounds) params.rounds liveWork turns
      else return .inconclusive reason
  | outcome => return outcome

/-- Solve a request. -/
def solve (blake2b : List UInt8 → Digest) (request : SolveRequest)
    (worlds : Nat → World request.edgeBits) (turns : Nat) (flag : Nat → Bool) :
    Except Fault SolveOutcome := do
  (validateRequest request capabilities).mapError .solver
  let params := request.graphParams blake2b
  let found ← (verdicts solver adapter params worlds request.liveWork turns).run flag
  return found.getD .cancelled

end Solve

/-- How a verdict may fail: its trim fails, or the survivors are too many to be peeled. -/
def VerdictFails (solver : GpuWgpuSolver) (adapter : Adapter) (request : GraphParams) (rounds : Nat)
    (liveWork : Bool) (fault : Fault) : Prop :=
  TrimFails solver adapter (graphEndpoints request.keys request.edgeBits) request rounds liveWork
    (trimOptions solver) fault ∨
  ∃ error, fault = .solver error ∧
    TooMany (survivors (graphEndpoints request.keys request.edgeBits) request.edgeBits rounds).ncard
      error

variable {solver : GpuWgpuSolver} {adapter : Adapter}

/-- What suits a run suits a shorter one. -/
theorem suited_fewer {endpoints : Nat → Nat → Nat} {edgeBits rounds fewer : Nat} {liveWork : Bool}
    {options : TrimRun.TrimOptions} (suited : Suited solver endpoints edgeBits rounds liveWork options)
    (less : fewer ≤ rounds) : Suited solver endpoints edgeBits fewer liveWork options := by
  refine { suited with small := Nat.lt_of_le_of_lt less suited.small, batches := ?_ }
  rcases suited.batches with large | live | few
  · exact Or.inl large
  · exact Or.inr (Or.inl live)
  · exact Or.inr (Or.inr (Nat.le_trans less few))

variable {request : GraphParams} {world : World request.edgeBits} {rounds turns : Nat}
  {liveWork : Bool} {made : Nat → Prop} {flag : Nat → Bool}

/-- A verdict is honest. -/
theorem verdict_ends (inRange : 1 ≤ request.edgeBits ∧ request.edgeBits ≤ 32)
    (cycle : 1 ≤ request.cycleLength)
    (suited : Suited solver (graphEndpoints request.keys request.edgeBits) request.edgeBits rounds
      liveWork (trimOptions solver))
    (numbered : Numbered request.keys request.edgeBits rounds)
    (stays : NeverReset flag) (enough : rounds < turns) :
    Ends flag (verdictAtRound solver adapter request world rounds liveWork turns)
      (Honest made flag request.keys request.edgeBits request.cycleLength (CoreLimit request))
      (VerdictFails solver adapter request rounds liveWork) := by
  have trimmed : Ends flag (trim solver adapter (graphEndpoints request.keys request.edgeBits)
      request world rounds liveWork turns)
      (Survivors (graphEndpoints request.keys request.edgeBits) request.edgeBits rounds)
      (VerdictFails solver adapter request rounds liveWork) :=
    (trim_with_mark_mode_ends suited stays enough).weaken (fun _ found => found) fun _ failed =>
      Or.inl failed
  rw [verdictAtRound]
  refine ends_bind trimmed fun listed found => ?_
  obtain ⟨unique, members⟩ := found
  have peels : Gives (peel Fault.solver .underflow request listed)
      (fun peeled => ListsCore request.keys request.edgeBits peeled ∧ peeled.length ≤ u32Max)
      (VerdictFails solver adapter request rounds liveWork) := by
    obtain ⟨returned, failed⟩ := peel_gives inRange.2 unique members numbered
    exact ⟨returned, fun fault refused => Or.inr (failed fault refused)⟩
  refine ends_bind (ends_step peels) fun peeled core => ?_
  apply ends_stop_then
  apply ends_step
  apply gives_map_error
  exact conclude_gives inRange cycle core.1 core.2 made flag _

/-- One of the verdicts of a request fails. -/
def VerdictsFail (solver : GpuWgpuSolver) (adapter : Adapter) (request : GraphParams)
    (liveWork : Bool) (fault : Fault) : Prop :=
  ∃ rounds, (rounds = min request.rounds earlyVerdictRound ∨ rounds = request.rounds) ∧
    VerdictFails solver adapter request rounds liveWork fault

/-- Both verdicts are honest. -/
theorem verdicts_end {worlds : Nat → World request.edgeBits}
    (inRange : 1 ≤ request.edgeBits ∧ request.edgeBits ≤ 32) (cycle : 1 ≤ request.cycleLength)
    (suited : Suited solver (graphEndpoints request.keys request.edgeBits) request.edgeBits
      request.rounds liveWork (trimOptions solver))
    (fits : GroupsFit request.keys request.edgeBits (min request.rounds earlyVerdictRound))
    (stays : NeverReset flag) (enough : request.rounds < turns) :
    Ends flag (verdicts solver adapter request worlds liveWork turns)
      (Honest made flag request.keys request.edgeBits request.cycleLength (CoreLimit request))
      (VerdictsFail solver adapter request liveWork) := by
  have verdict (rounds : Nat) (less : rounds ≤ request.rounds)
      (more : min request.rounds earlyVerdictRound ≤ rounds)
      (asked : rounds = min request.rounds earlyVerdictRound ∨ rounds = request.rounds) :
      Ends flag (verdictAtRound solver adapter request (worlds rounds) rounds liveWork turns)
        (Honest made flag request.keys request.edgeBits request.cycleLength (CoreLimit request))
        (VerdictsFail solver adapter request liveWork) :=
    (verdict_ends inRange cycle (suited_fewer suited less) (fits.numbered inRange.2 more) stays
      (Nat.lt_of_le_of_lt less enough)).weaken
      (fun _ honest => honest) fun _ failed => ⟨rounds, asked, failed⟩
  rw [verdicts]
  refine ends_bind (verdict _ (Nat.min_le_left _ _) (Nat.le_refl _) (Or.inl rfl)) fun outcome honest => ?_
  split
  · split
    · exact verdict _ (Nat.le_refl _) (Nat.min_le_left _ _) (Or.inr rfl)
    · exact ends_pure honest
  · exact ends_pure honest

/-- How a solve may fail: its request is refused, or one of its verdicts fails. -/
def SolveFails (solver : GpuWgpuSolver) (adapter : Adapter) (blake2b : List UInt8 → Digest)
    (request : SolveRequest) (fault : Fault) : Prop :=
  (∃ error, fault = .solver error ∧ validateRequest request capabilities = .error error) ∨
  VerdictsFail solver adapter (request.graphParams blake2b) request.liveWork fault

/-- A request that is valid gets honest verdicts. -/
theorem valid_request_ends {blake2b : List UInt8 → Digest} {request : SolveRequest}
    {worlds : Nat → World request.edgeBits} (valid : Valid request capabilities)
    (suited : Suited solver (graphEndpoints (request.sipKeys blake2b) request.edgeBits)
      request.edgeBits request.rounds request.liveWork (trimOptions solver))
    (fits : GroupsFit (request.sipKeys blake2b) request.edgeBits
      (min request.rounds earlyVerdictRound))
    (stays : NeverReset flag) (enough : request.rounds < turns) :
    Ends flag (verdicts solver adapter (request.graphParams blake2b) worlds request.liveWork turns)
      (Honest made flag (request.sipKeys blake2b) request.edgeBits request.cycleLength
        (CoreLimit (request.graphParams blake2b)))
      (VerdictsFail solver adapter (request.graphParams blake2b) request.liveWork) :=
  verdicts_end valid.edgeBits (Nat.le_trans (by decide) valid.cycleLength.1) suited fits stays enough

/-- What verdicts come to is honest, also where they have stopped. -/
theorem verdict_or_cancelled {ε : Type} {keys : SipHash.SipKeys} {edgeBits cycleLength : Nat}
    {limited : String → Prop} {task : Task ε SolveOutcome} {fails : ε → Prop}
    (ends : Ends flag task (Honest (task.Reads flag) flag keys edgeBits cycleLength limited) fails) :
    Gives (do let found ← task.run flag; return found.getD .cancelled)
      (Honest (task.Reads flag) flag keys edgeBits cycleLength limited) fails := by
  refine gives_bind (ends_run ends) fun found honest => ?_
  cases found with
  | none => exact gives_ok honest
  | some outcome => exact gives_ok honest

/-- Whatever the orders of the threads and the contents of the buffers, and however the cancel
    flag is raised, a solve comes to an honest verdict: a proof verifies, no proof of the whole
    graph verifies where none was found, a cancelled solve has made a reading that found the flag
    raised, and an inconclusive one has met a limit in the search of the core, which has more arcs or
    whose search counts more branches than allowed. It fails only since the request, the graph or
    the adapter is refused or the survivors are too many.

    The settings, the graph and the flag are those on which the kernels can rely: slean rounds
    whose layout fits and whose buckets have less than 65536 bytes, batches and survivors that thirty-two
    bits can count, a flag that is not lowered, and in graphs of thirty-two edge bits few enough
    nodes after the early rounds. -/
theorem wgpu_solve_honest (solver : GpuWgpuSolver) (adapter : Adapter) (blake2b : List UInt8 → Digest)
    (request : SolveRequest) (worlds : Nat → World request.edgeBits) (turns : Nat)
    (flag : Nat → Bool)
    (suited : Suited solver (graphEndpoints (request.sipKeys blake2b) request.edgeBits)
      request.edgeBits request.rounds request.liveWork (trimOptions solver))
    (fits : GroupsFit (request.sipKeys blake2b) request.edgeBits
      (min request.rounds earlyVerdictRound))
    (stays : NeverReset flag) (enough : request.rounds < turns) :
    Gives (solve solver adapter blake2b request worlds turns flag)
      (fun outcome => Valid request capabilities ∧
        Honest ((verdicts solver adapter (request.graphParams blake2b) worlds request.liveWork
          turns).Reads flag) flag (request.sipKeys blake2b) request.edgeBits request.cycleLength
          (CoreLimit (request.graphParams blake2b)) outcome)
      (SolveFails solver adapter blake2b request) := by
  apply validated_gives
  · intro error refused
    exact Or.inl ⟨error, rfl, refused⟩
  · intro valid
    obtain ⟨returned, failed⟩ :=
      verdict_or_cancelled (valid_request_ends valid suited fits stays enough)
    exact ⟨returned, fun fault fell => Or.inr (failed fault fell)⟩

/-- A request for ninety rounds, with the flag raised at the hundredth reading. -/
theorem wgpu_four_parts_solve :
    Gives (solve (sleanSolver 4) ⟨"adapter", toString⟩ (fun _ => Vector.replicate 32 0)
        ⟨[0], 0#64, true, 24, 42, 90⟩ (fun _ => worldInOrder 24) 91 fun clock => decide (100 ≤ clock))
      (fun outcome => Valid ⟨[0], 0#64, true, 24, 42, 90⟩ capabilities ∧
        Honest ((verdicts (sleanSolver 4) ⟨"adapter", toString⟩
            ⟨deriveKeys (fun _ => Vector.replicate 32 0) [0] 0#64, 24, 42, 90⟩
            (fun _ => worldInOrder 24) true 91).Reads fun clock => decide (100 ≤ clock))
          (fun clock => decide (100 ≤ clock)) (deriveKeys (fun _ => Vector.replicate 32 0) [0] 0#64)
          24 42 (CoreLimit ⟨deriveKeys (fun _ => Vector.replicate 32 0) [0] 0#64, 24, 42, 90⟩) outcome)
      (SolveFails (sleanSolver 4) ⟨"adapter", toString⟩ (fun _ => Vector.replicate 32 0)
        ⟨[0], 0#64, true, 24, 42, 90⟩) :=
  wgpu_solve_honest (sleanSolver 4) ⟨"adapter", toString⟩ (fun _ => Vector.replicate 32 0)
    ⟨[0], 0#64, true, 24, 42, 90⟩ (fun _ => worldInOrder 24) 91 _
    (four_parts_suited (graph_endpoints_lt _ 24 (by decide))) (Or.inl (by decide))
    (raised_for_good 100) (by decide)

end CuckatooMiner.WgpuSolve
