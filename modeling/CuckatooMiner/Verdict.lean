import Mathlib
import CuckatooMiner.GpuVerdict
import CuckatooMiner.SearchAgreement
import CuckatooMiner.Foundation.Polling

/-!
# What a verdict says

Every backend trims a graph, looks for a cycle among the survivors and reports a verdict. An
honest verdict is right about the whole graph: a proof verifies, and no proof verifies where
none was found. A cancelled one says that a reading found the flag raised, and an inconclusive one
that some limit was met. The end of the pipeline is the same for all backends on the GPU: peeling
leaves the core, and the search of the core decides.

Limits are numbers of the graph: the arcs of its core, and the branches that a search without
limits counts until its first proof or until its end. Nothing is said of how long a search takes,
or of the order of the core's edges beyond that each is listed once.
-/

namespace CuckatooMiner.Verdict

open SipHash Verify Solver Pruning TwoCore D2 SearchAgreement
open GpuVerdict (conclude)
open Outcome (Gives gives_bind gives_map_error gives_ok)
open Peel (u32Max)
open PeelTrimmed (ListsCore)

/-- The nodes of the edges of a graph, by side. -/
def graphEndpoints (keys : SipKeys) (edgeBits side edge : Nat) : Nat :=
  endpoint keys edgeBits edge side

/-- The meaning of a verdict, given which readings of the flag were made and what a limit means. A
    proof and the absence of a cycle are about the whole graph and not about what a trim left of it.
    Nothing is promised about when a verdict is cancelled or inconclusive beyond a reading that was
    made and found the flag raised, and a limit that was met. -/
def Honest (made : Nat → Prop) (flag : Nat → Bool) (keys : SipKeys) (edgeBits cycleLength : Nat)
    (limited : String → Prop) (outcome : SolveOutcome) : Prop :=
  match outcome with
  | .proof proof => verifyCycle keys edgeBits cycleLength proof = .ok ()
  | .noCycle => ∀ proof, verifyCycle keys edgeBits cycleLength proof ≠ .ok ()
  | .cancelled => ∃ clock, made clock ∧ flag clock = true
  | .inconclusive reason => limited reason

/-- What is honest under few readings and a narrow meaning of limits is so under more of both. -/
theorem Honest.weaken {made more : Nat → Prop} {flag : Nat → Bool} {keys : SipKeys}
    {edgeBits cycleLength : Nat} {narrow wide : String → Prop} {outcome : SolveOutcome}
    (honest : Honest made flag keys edgeBits cycleLength narrow outcome)
    (readings : ∀ clock, made clock → more clock) (wider : ∀ reason, narrow reason → wide reason) :
    Honest more flag keys edgeBits cycleLength wide outcome := by
  cases outcome with
  | proof proof => exact honest
  | noCycle => exact honest
  | cancelled =>
    obtain ⟨clock, found, raised⟩ := honest
    exact ⟨clock, readings clock found, raised⟩
  | inconclusive reason => exact wider reason honest

/-- The search of some edges meets a limit: the arcs or the branches of the two-step search, or the
    branches of the generic one for other cycle lengths, are more than it allows. -/
def SearchLimited (request : GraphParams) (edges : List Nat) (reason : String) : Prop :=
  if request.cycleLength = 42 then TwoStepFails request edges (.searchLimit reason)
  else GenericFails request edges (.searchLimit reason)

/-- The search of the core meets a limit, with the edges of the core in some order. The order
    decides how many branches are counted; every order in which a trim may list its survivors is
    allowed for. -/
def CoreLimit (request : GraphParams) (reason : String) : Prop :=
  ∃ edges, ListsCore request.keys request.edgeBits edges ∧ SearchLimited request edges reason

/-- All nodes are nodes of the graph. -/
theorem graph_endpoints_lt (keys : SipKeys) (edgeBits : Nat) (inRange : edgeBits ≤ 32)
    (side edge : Nat) : graphEndpoints keys edgeBits side edge < 2 ^ edgeBits :=
  endpoint_lt keys edgeBits edge side inRange

/-- Validation accepts valid requests, and refuses as it does. -/
theorem validate_gives (request : SolveRequest) (capabilities : BackendCapabilities) :
    Gives (validateRequest request capabilities) (fun _ => Valid request capabilities)
      (fun error => validateRequest request capabilities = .error error) := by
  refine ⟨fun accepted validated => ?_, fun _ refused => refused⟩
  cases accepted
  exact (validate_request_iff request capabilities).mp validated

/-- What follows the validation may rely on it. -/
theorem validated_gives {ε : Type*} {rename : SolveError → ε} {request : SolveRequest}
    {capabilities : BackendCapabilities} {rest : Except ε SolveOutcome} {value : SolveOutcome → Prop}
    {fails : ε → Prop}
    (refused : ∀ error, validateRequest request capabilities = .error error → fails (rename error))
    (following : Valid request capabilities → Gives rest value fails) :
    Gives (do (validateRequest request capabilities).mapError rename; rest)
      (fun outcome => Valid request capabilities ∧ value outcome) fails := by
  obtain ⟨accepted, failed⟩ := validate_gives request capabilities
  have validates : Gives ((validateRequest request capabilities).mapError rename)
      (fun _ => Valid request capabilities) fails :=
    gives_map_error ⟨accepted, fun error raised => refused error (failed error raised)⟩
  refine gives_bind validates fun _ valid => ?_
  obtain ⟨holds, fell⟩ := following valid
  exact ⟨fun outcome ended => ⟨valid, holds outcome ended⟩, fell⟩

variable {request : GraphParams}

/-- In few enough edges to be numbered the search fails exactly at its limits. -/
theorem search_fails_iff (inRange : request.edgeBits ≤ 32) {edges : List Nat}
    (few : edges.length ≤ u32Max) (error : SolveError) :
    findCycleD2 request edges = .error error ↔
      ∃ reason, error = .searchLimit reason ∧ SearchLimited request edges reason := by
  unfold SearchLimited
  by_cases length : request.cycleLength = 42
  · simp only [if_pos length]
    rw [find_cycle_d2_error_iff request edges inRange length]
    constructor
    · intro failed
      rcases failed.2 with ⟨many, _⟩ | ⟨_, _, rfl⟩ | ⟨_, _, _, rfl⟩
      · omega
      · exact ⟨_, rfl, failed⟩
      · exact ⟨_, rfl, failed⟩
    · rintro ⟨reason, rfl, failed⟩
      exact failed
  · simp only [if_neg length]
    have generic : findCycleD2 request edges = CpuSearch.findCycle request edges := by
      rw [findCycleD2]
      split
      · rename_i short
        rw [CpuSearch.findCycle, if_pos short]
      · rfl
    rw [generic, find_cycle_error_iff request edges]
    constructor
    · intro failed
      obtain ⟨enough, many, rfl⟩ := failed
      exact ⟨_, rfl, enough, many, rfl⟩
    · rintro ⟨reason, rfl, failed⟩
      exact failed

/-- The search of the core comes to an honest verdict. -/
theorem conclude_gives (inRange : 1 ≤ request.edgeBits ∧ request.edgeBits ≤ 32)
    (cycle : 1 ≤ request.cycleLength) {peeled : List Nat}
    (core : ListsCore request.keys request.edgeBits peeled) (few : peeled.length ≤ u32Max)
    (made : Nat → Prop) (flag : Nat → Bool) (fails : SolveError → Prop) :
    Gives (conclude (findCycleD2 request peeled))
      (Honest made flag request.keys request.edgeBits request.cycleLength (CoreLimit request))
      fails := by
  cases searched : findCycleD2 request peeled with
  | ok found =>
    cases found with
    | some proof => exact gives_ok (find_cycle_d2_sound request peeled proof searched)
    | none =>
      refine gives_ok fun proof accepted => ?_
      have alternating := (verify_cycle_iff _ _ _ _ inRange cycle).mp accepted
      have included : proof.nonces ⊆ peeled := fun edge member =>
        (core.members edge).mpr (cycle_in_core alternating edge member)
      exact find_cycle_d2_complete request peeled proof inRange cycle included searched accepted
  | error error =>
    obtain ⟨reason, rfl, limited⟩ := (search_fails_iff inRange.2 few error).mp searched
    exact gives_ok ⟨peeled, core, limited⟩

end CuckatooMiner.Verdict
