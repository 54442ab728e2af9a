import Mathlib
import CuckatooMiner.CpuSolve
import CuckatooMiner.MetalSolve
import CuckatooMiner.WgpuSolve

/-!
# Solvers as their callers know them

The gate and the mining loop hold a solver behind a trait and know no more of it than what it
may answer. An honest solver answers valid requests only, and all its verdicts are honest; a
caller knows neither which readings of the flag it makes nor what its limits are. The three
backends are such solvers; for those on a GPU what their kernels rely on is part of what may be
answered, and the orders of the threads and the contents of the buffers are left open.
-/

namespace CuckatooMiner

open Solver Verdict

/-- A solver by what it may answer to a request under a flag. All its verdicts are honest. That a
    solver answers at all is not part of it. -/
structure HonestSolver (blake2b : List UInt8 → Digest) where
  capabilities : BackendCapabilities
  Answers : SolveRequest → (Nat → Bool) → SolveOutcome → Prop
  valid : ∀ request flag outcome, Answers request flag outcome → Valid request capabilities
  honest : ∀ request flag outcome, Answers request flag outcome →
    Honest (fun _ => True) flag (request.sipKeys blake2b) request.edgeBits request.cycleLength
      (fun _ => True) outcome

namespace HonestSolver

variable {blake2b : List UInt8 → Digest} {request : SolveRequest} {flag : Nat → Bool}
  {outcome : SolveOutcome}

/-- The solver that may give every honest verdict on a valid request. -/
def widest (blake2b : List UInt8 → Digest) (capabilities : BackendCapabilities) :
    HonestSolver blake2b where
  capabilities := capabilities
  Answers request flag outcome := Valid request capabilities ∧
    Honest (fun _ => True) flag (request.sipKeys blake2b) request.edgeBits request.cycleLength
      (fun _ => True) outcome
  valid _ _ _ answers := answers.1
  honest _ _ _ answers := answers.2

/-! ## The processor -/

/-- The CPU solver answers valid requests. -/
theorem cpu_valid (solver : CpuLean.CpuLeanSolver)
    (solved : solver.solve blake2b request flag = .ok outcome) : Valid request solver.capabilities :=
  And.left <| CpuLean.solve_cases solver blake2b request flag outcome solved

/-- Its verdicts are honest. -/
theorem cpu_honest (solver : CpuLean.CpuLeanSolver)
    (solved : solver.solve blake2b request flag = .ok outcome) :
    Honest (fun _ => True) flag (request.sipKeys blake2b) request.edgeBits request.cycleLength
      (fun _ => True) outcome := by
  have valid := cpu_valid solver solved
  rcases CpuSolve.solve_cancel valid with ⟨stopped, k, _, raised⟩ | same
  · rw [solved] at stopped
    cases stopped
    exact ⟨k, trivial, raised⟩
  · obtain ⟨verdict, without, honest⟩ := CpuSolve.solve_never valid (fun _ => True) flag
    rw [solved, without] at same
    cases same
    exact honest.weaken (fun _ _ => trivial) fun _ _ => trivial

/-- The CPU solver. -/
def cpu (blake2b : List UInt8 → Digest) (solver : CpuLean.CpuLeanSolver) : HonestSolver blake2b where
  capabilities := solver.capabilities
  Answers request flag outcome := solver.solve blake2b request flag = .ok outcome
  valid _ _ _ solved := cpu_valid solver solved
  honest _ _ _ solved := cpu_honest solver solved

/-! ## The graphics processor -/

/-- What the wgpu solver may answer where its kernels have what they rely on. Nothing is said of
    other settings and graphs. -/
structure WgpuAnswers (blake2b : List UInt8 → Digest) (solver : SleanLayout.GpuWgpuSolver)
    (adapter : WgpuTrim.Adapter) (request : SolveRequest) (flag : Nat → Bool)
    (outcome : SolveOutcome) : Prop where
  suited : WgpuTrim.Suited solver (graphEndpoints (request.sipKeys blake2b) request.edgeBits)
    request.edgeBits request.rounds request.liveWork (WgpuTrim.trimOptions solver)
  fits : GpuVerdict.GroupsFit (request.sipKeys blake2b) request.edgeBits
    (min request.rounds GpuVerdict.earlyVerdictRound)
  stays : Polling.NeverReset flag
  solved : ∃ worlds turns, request.rounds < turns ∧
    WgpuSolve.solve solver adapter blake2b request worlds turns flag = .ok outcome

/-- The wgpu solver gives honest verdicts on valid requests. -/
theorem wgpu_honest {solver : SleanLayout.GpuWgpuSolver} {adapter : WgpuTrim.Adapter}
    (answers : WgpuAnswers blake2b solver adapter request flag outcome) :
    Valid request GpuVerdict.capabilities ∧
      Honest (fun _ => True) flag (request.sipKeys blake2b) request.edgeBits request.cycleLength
        (fun _ => True) outcome := by
  obtain ⟨worlds, turns, enough, solved⟩ := answers.solved
  have gives : Outcome.Gives (WgpuSolve.solve solver adapter blake2b request worlds turns flag)
      (fun outcome => Valid request GpuVerdict.capabilities ∧
        Honest (fun _ => True) flag (request.sipKeys blake2b) request.edgeBits request.cycleLength
          (CoreLimit (request.graphParams blake2b)) outcome) (fun _ => True) := by
    apply validated_gives (fun _ _ => trivial)
    intro valid
    obtain ⟨returned, _⟩ := WgpuSolve.verdict_or_cancelled
      (WgpuSolve.valid_request_ends valid answers.suited answers.fits answers.stays enough)
    exact ⟨fun outcome ended => (returned outcome ended).weaken (fun _ _ => trivial)
      fun _ limited => limited, fun _ _ => trivial⟩
  obtain ⟨valid, honest⟩ := gives.returned outcome solved
  exact ⟨valid, honest.weaken (fun _ made => made) fun _ _ => trivial⟩

/-- The wgpu solver. -/
def wgpu (blake2b : List UInt8 → Digest) (solver : SleanLayout.GpuWgpuSolver)
    (adapter : WgpuTrim.Adapter) : HonestSolver blake2b where
  capabilities := GpuVerdict.capabilities
  Answers := WgpuAnswers blake2b solver adapter
  valid _ _ _ answers := (wgpu_honest answers).1
  honest _ _ _ answers := (wgpu_honest answers).2

/-- What the Metal solver may answer where its kernels have what they rely on. Nothing is said
    of other settings and graphs. -/
def MetalAnswers (blake2b : List UInt8 → Digest) (solver : MetalSolve.GpuMetalSolver)
    (request : SolveRequest) (flag : Nat → Bool) (outcome : SolveOutcome) : Prop :=
  ∃ orders memory contents fuel,
    MetalSolve.Suited solver (request.graphParams blake2b) ∧
    request.rounds ≤ fuel ∧
    MetalSolve.solve solver orders memory contents blake2b request fuel flag = .ok outcome

/-- The Metal solver gives honest verdicts on valid requests. -/
theorem metal_honest {solver : MetalSolve.GpuMetalSolver}
    (answers : MetalAnswers blake2b solver request flag outcome) :
    Valid request MetalSolve.capabilities ∧
      Honest (fun _ => True) flag (request.sipKeys blake2b) request.edgeBits request.cycleLength
        (fun _ => True) outcome := by
  obtain ⟨orders, memory, contents, fuel, suited, enough, solved⟩ := answers
  have gives : Outcome.Gives
      (MetalSolve.solve solver orders memory contents blake2b request fuel flag)
      (fun outcome => Valid request MetalSolve.capabilities ∧
        Honest (fun _ => True) flag (request.sipKeys blake2b) request.edgeBits request.cycleLength
          (MetalSolve.Limited solver (request.graphParams blake2b)) outcome) (fun _ => True) := by
    apply validated_gives (fun _ _ => trivial)
    intro valid
    obtain ⟨returned, _⟩ := MetalSolve.verdict_gives suited valid.supported
      (Nat.le_trans (by decide) valid.cycleLength.1) enough
    exact ⟨fun outcome ended => (returned outcome ended).weaken (fun _ _ => trivial)
      fun _ limited => limited, fun _ _ => trivial⟩
  obtain ⟨valid, honest⟩ := gives.returned outcome solved
  exact ⟨valid, honest.weaken (fun _ made => made) fun _ _ => trivial⟩

/-- The Metal solver. -/
def metal (blake2b : List UInt8 → Digest) (solver : MetalSolve.GpuMetalSolver) :
    HonestSolver blake2b where
  capabilities := MetalSolve.capabilities
  Answers := MetalAnswers blake2b solver
  valid _ _ _ answers := (metal_honest answers).1
  honest _ _ _ answers := (metal_honest answers).2

end HonestSolver

end CuckatooMiner
