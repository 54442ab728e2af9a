import Mathlib
import CuckatooMiner.CpuTrim
import CuckatooMiner.CpuSearch

/-!
# The CPU solver

`CpuLeanSolver::solve` validates the request, trims, looks at the cancel flag once
more and searches the survivors. Its verdicts are right about the whole graph: a
returned proof verifies, and the absence of a cycle among the survivors is the
absence of a cycle in the graph, because trimming keeps the core and the core
holds every cycle. Running out of branches is reported as inconclusive.
-/

namespace CuckatooMiner.CpuLean

open SipHash Verify Solver Pruning TwoCore CpuTrim CpuSearch

/-- The largest graph of the default solver. -/
def defaultMaxEdgeBits : Nat := 28

/-- A CPU solver and the largest graph it accepts. -/
structure CpuLeanSolver where
  maxEdgeBits : Nat
deriving DecidableEq, Repr

/-- The solver that the program starts. -/
def CpuLeanSolver.default : CpuLeanSolver := ⟨defaultMaxEdgeBits⟩

/-- What the solver can solve. -/
def CpuLeanSolver.capabilities (solver : CpuLeanSolver) : BackendCapabilities :=
  ⟨1, solver.maxEdgeBits, 42⟩

/-- Solve a request. The reads of the cancel flag are numbered by the rounds they
    precede; the read after trimming has the number of requested rounds. -/
def CpuLeanSolver.solve (solver : CpuLeanSolver) (blake2b : List UInt8 → Digest)
    (request : SolveRequest) (cancel : Nat → Bool) : Except SolveError SolveOutcome := do
  validateRequest request solver.capabilities
  let params := request.graphParams blake2b
  match ← trimSurvivorsCancellable params solver.maxEdgeBits cancel with
  | none => .ok .cancelled
  | some survivors =>
      if cancel request.rounds then .ok .cancelled
      else
        match findCycle params survivors with
        | .ok (some proof) => .ok (.proof proof)
        | .ok none => .ok .noCycle
        | .error (.searchLimit reason) => .ok (.inconclusive reason)
        | .error error => .error error

variable (solver : CpuLeanSolver) (blake2b : List UInt8 → Digest) (request : SolveRequest)

/-- A solve that is neither refused nor cancelled has searched the survivors of a
    completed trim. -/
theorem solve_cases (cancel : Nat → Bool) (outcome : SolveOutcome)
    (solved : solver.solve blake2b request cancel = .ok outcome) :
    Valid request solver.capabilities ∧ (outcome = .cancelled ∨
      ∃ survivors, trimSurvivorsCancellable (request.graphParams blake2b) solver.maxEdgeBits
          cancel = .ok (some survivors) ∧
        ((∃ proof, findCycle (request.graphParams blake2b) survivors = .ok (some proof) ∧
            outcome = .proof proof) ∨
          (findCycle (request.graphParams blake2b) survivors = .ok none ∧ outcome = .noCycle) ∨
          ∃ reason, findCycle (request.graphParams blake2b) survivors =
            .error (.searchLimit reason) ∧ outcome = .inconclusive reason)) := by
  obtain ⟨⟨⟩, validated, rest⟩ := (Outcome.bind_ok_iff _ _ _).mp solved
  obtain ⟨trimmed, trim, searched⟩ := (Outcome.bind_ok_iff _ _ _).mp rest
  refine ⟨(validate_request_iff _ _).mp validated, ?_⟩
  cases trimmed with
  | none =>
    cases searched
    exact Or.inl rfl
  | some survivors =>
    simp only at searched
    split at searched
    · cases searched
      exact Or.inl rfl
    · refine Or.inr ⟨survivors, trim, ?_⟩
      split at searched
      · rename_i proof found
        cases searched
        exact Or.inl ⟨proof, found, rfl⟩
      · rename_i ended
        cases searched
        exact Or.inr (Or.inl ⟨ended, rfl⟩)
      · rename_i reason failed
        cases searched
        exact Or.inr (Or.inr ⟨reason, failed, rfl⟩)
      · cases searched

/-- A proof among the edges of the graph has all its edges among the survivors. -/
theorem proof_survives (params : GraphParams) (maxEdgeBits : Nat) (cancel : Nat → Bool)
    (survivors : List Nat) (proof : Proof)
    (inRange : 1 ≤ params.edgeBits ∧ params.edgeBits ≤ 32) (positive : 1 ≤ params.cycleLength)
    (trimmed : trimSurvivorsCancellable params maxEdgeBits cancel = .ok (some survivors))
    (accepted : verifyCycle params.keys params.edgeBits params.cycleLength proof = .ok ()) :
    proof.nonces ⊆ survivors := by
  have cycle := (verify_cycle_iff _ _ _ _ inRange positive).mp accepted
  obtain ⟨_, rounds, _, members⟩ := trim_survivors_spec params maxEdgeBits cancel survivors
    inRange.2 trimmed
  intro edge member
  exact (members edge).mpr (core_subset_trim_rounds rounds (cycle_in_core cycle edge member))

/-- A valid request that is never cancelled gets a verdict: a proof, the absence of
    a cycle, or an inconclusive search. -/
theorem solve_verdict (cancel : Nat → Bool) (valid : Valid request solver.capabilities)
    (never : ∀ k, cancel k = false) :
    (∃ proof, solver.solve blake2b request cancel = .ok (.proof proof)) ∨
      solver.solve blake2b request cancel = .ok .noCycle ∨
      ∃ reason, solver.solve blake2b request cancel = .ok (.inconclusive reason) := by
  obtain ⟨survivors, trimmed⟩ := trim_survivors_total (request.graphParams blake2b)
    solver.maxEdgeBits cancel valid.edgeBits.2 valid.supported.2 never
  have validated := (validate_request_iff _ _).mpr valid
  unfold CpuLeanSolver.solve
  rw [Outcome.bind_of_ok _ _ _ validated]
  simp only
  rw [Outcome.bind_of_ok _ _ _ trimmed]
  simp only [never request.rounds, Bool.false_eq_true, if_false]
  cases searched : findCycle (request.graphParams blake2b) survivors with
  | ok found =>
    cases found with
    | none => exact Or.inr (Or.inl rfl)
    | some proof => exact Or.inl ⟨proof, rfl⟩
  | error error =>
    obtain ⟨reason, rfl⟩ := find_cycle_error _ _ _ searched
    exact Or.inr (Or.inr ⟨reason, rfl⟩)

/-- The verdicts of the CPU solver are right about the whole graph, whatever the key derivation:
    a returned proof verifies, no proof verifies when none was found, and an uncancelled valid
    request always gets a verdict. Nothing is assumed of the keys. An inconclusive verdict says
    only that the search gave up, and how long a solve takes is left out. -/
theorem cpu_solve_sound_complete (blake2b : List UInt8 → Digest) (request : SolveRequest)
    (cancel : Nat → Bool) (bits : 1 ≤ request.edgeBits ∧ request.edgeBits ≤ 28)
    (cycle : 2 ≤ request.cycleLength ∧ request.cycleLength % 2 = 0 ∧ request.cycleLength ≤ 64)
    (rounds : 1 ≤ request.rounds) (never : ∀ k, cancel k = false) :
    (∀ proof, CpuLeanSolver.default.solve blake2b request cancel = .ok (.proof proof) →
      verifyCycle (request.sipKeys blake2b) request.edgeBits request.cycleLength proof = .ok ()) ∧
    (CpuLeanSolver.default.solve blake2b request cancel = .ok .noCycle → ∀ proof,
      verifyCycle (request.sipKeys blake2b) request.edgeBits request.cycleLength proof ≠ .ok ()) ∧
    (request.prePow ≠ [] → (request.liveWork = true → request.cycleLength = 42) →
      (∃ proof, CpuLeanSolver.default.solve blake2b request cancel = .ok (.proof proof)) ∨
        CpuLeanSolver.default.solve blake2b request cancel = .ok .noCycle ∨
        ∃ reason, CpuLeanSolver.default.solve blake2b request cancel =
          .ok (.inconclusive reason)) := by
  have inRange : 1 ≤ request.edgeBits ∧ request.edgeBits ≤ 32 := by omega
  have positive : 1 ≤ request.cycleLength := by omega
  refine ⟨?_, ?_, ?_⟩
  · intro proof solved
    obtain ⟨_, impossible | ⟨survivors, _, ⟨_, found, same⟩ | ⟨_, other⟩ | ⟨_, _, other⟩⟩⟩ :=
      solve_cases _ blake2b request cancel _ solved
    · cases impossible
    · cases same
      exact find_cycle_sound (request.graphParams blake2b) survivors proof found
    · cases other
    · cases other
  · intro solved proof accepted
    obtain ⟨_, impossible | ⟨survivors, trimmed, ⟨_, _, other⟩ | ⟨ended, _⟩ | ⟨_, _, other⟩⟩⟩ :=
      solve_cases _ blake2b request cancel _ solved
    · cases impossible
    · cases other
    · have included := proof_survives (request.graphParams blake2b) _ cancel survivors proof
        inRange positive trimmed accepted
      exact find_cycle_complete (request.graphParams blake2b) survivors proof inRange positive
        included ended accepted
    · cases other
  · intro header live
    exact solve_verdict _ blake2b request cancel
      ⟨header, inRange, bits, cycle, live, rounds⟩ never

/-- A digest has a first byte. -/
theorem digest_nonempty : 0 < 32 := by decide

/-- A digest whose first byte alone is not zero. -/
def sampleDigest : List UInt8 → Digest := fun _ => (Vector.replicate 32 0).set 0 24 digest_nonempty

/-- The solver finds the only four-cycle of a sixteen-edge graph, and it verifies. -/
theorem cpu_solve_finds_four_cycle :
    CpuLeanSolver.default.solve sampleDigest ⟨[0], 0#64, false, 4, 4, 20⟩ (fun _ => false) =
        .ok (.proof ⟨[0, 6, 9, 15]⟩) ∧
      verifyCycle (deriveKeys sampleDigest [0] 0#64) 4 4 ⟨[0, 6, 9, 15]⟩ = .ok () := by
  have solved : CpuLeanSolver.default.solve sampleDigest ⟨[0], 0#64, false, 4, 4, 20⟩
      (fun _ => false) = .ok (.proof ⟨[0, 6, 9, 15]⟩) := by decide +kernel
  exact ⟨solved, (cpu_solve_sound_complete sampleDigest ⟨[0], 0#64, false, 4, 4, 20⟩
    (fun _ => false) (by decide) (by decide) (by decide) (fun _ => rfl)).1 _ solved⟩

end CuckatooMiner.CpuLean
