import Mathlib
import CuckatooMiner.CpuLean
import CuckatooMiner.Verdict

/-!
# The CPU solver under a flag

The CPU solver reads the cancel flag before each round and before the search. A reading that
finds it raised ends the solve as cancelled; if none does, the solve comes to what it comes to
without a flag. So a flag decides whether there is a verdict, and never which one.

The flag is a function of the number of the reading, and readings are numbered by the rounds that
they come before, so no reading has a number beyond that of the rounds. The limit of the search is
on the branches that it counts among the survivors in ascending order.
-/

namespace CuckatooMiner.CpuSolve

open CpuLean CpuTrim Outcome Solver Verdict Verify
open CpuSearch (findCycle find_cycle_complete find_cycle_sound)
open SearchAgreement (GenericFails find_cycle_error_iff)

variable {request : GraphParams} {edgeCount wordCount : Nat} {cancel : Nat → Bool}

/-- No reading is raised. -/
abbrev never : Nat → Bool := fun _ => false

/-- A loop is cancelled by a reading before one of its rounds, or ends as without a flag. -/
theorem trim_round_loop_cancel (remaining round : Nat) (alive : List (BitVec 64)) :
    (trimRoundLoop request edgeCount wordCount cancel remaining round alive = none ∧
      ∃ k < round + remaining, cancel k = true) ∨
    trimRoundLoop request edgeCount wordCount cancel remaining round alive =
      trimRoundLoop request edgeCount wordCount never remaining round alive := by
  induction remaining generalizing round alive with
  | zero => exact Or.inr rfl
  | succ remaining ih =>
    simp only [trimRoundLoop]
    by_cases raised : cancel round = true
    · rw [if_pos raised]
      exact Or.inl ⟨rfl, round, by omega, raised⟩
    · rw [if_neg raised, if_neg Bool.false_ne_true]
      split
      · exact Or.inr rfl
      · rcases ih (round + 1) _ with ⟨stopped, k, inside, found⟩ | same
        · exact Or.inl ⟨stopped, k, by omega, found⟩
        · exact Or.inr same

/-- A trim is cancelled by a reading before one of its rounds, or ends as without a flag. -/
theorem trim_survivors_cancel (maxEdgeBits : Nat) :
    (trimSurvivorsCancellable request maxEdgeBits cancel = .ok none ∧
      ∃ k < request.rounds, cancel k = true) ∨
    trimSurvivorsCancellable request maxEdgeBits cancel =
      trimSurvivorsCancellable request maxEdgeBits never := by
  rw [trimSurvivorsCancellable, trimSurvivorsCancellable]
  split
  · exact Or.inr rfl
  · dsimp only
    split
    · exact Or.inr rfl
    · have loops := @trim_round_loop_cancel request (2 ^ request.edgeBits)
        ((2 ^ request.edgeBits + 63) / 64) cancel request.rounds 0
        (allAlive (2 ^ request.edgeBits) ((2 ^ request.edgeBits + 63) / 64))
      rcases loops with ⟨stopped, k, inside, raised⟩ | same
      · rw [stopped]
        exact Or.inl ⟨rfl, k, by omega, raised⟩
      · rw [same]
        exact Or.inr rfl

/-- The search of the survivors of some rounds, in ascending order, counts more branches than its
    limit. The rounds may be fewer than those asked for, since the trim ends with a round that
    removes nothing. -/
def SurvivorLimit (request : GraphParams) (reason : String) : Prop :=
  ∃ survivors rounds, rounds ≤ request.rounds ∧ survivors.Pairwise (· < ·) ∧
    (∀ edge, edge ∈ survivors ↔ edge ∈ Pruning.trimRounds
      (Complementary request.keys request.edgeBits) (TwoCore.graph request.edgeBits) rounds) ∧
    GenericFails request survivors (.searchLimit reason)

variable {solver : CpuLeanSolver} {blake2b : List UInt8 → Digest} {work : SolveRequest}

/-- A solve is cancelled by a reading, or ends as without a flag. -/
theorem solve_cancel (valid : Valid work solver.capabilities) :
    (solver.solve blake2b work cancel = .ok .cancelled ∧ ∃ k ≤ work.rounds, cancel k = true) ∨
      solver.solve blake2b work cancel = solver.solve blake2b work never := by
  have validated := (validate_request_iff _ _).mpr valid
  rw [CpuLeanSolver.solve, CpuLeanSolver.solve, bind_of_ok _ _ _ validated,
    bind_of_ok _ _ _ validated]
  dsimp only
  have trims := @trim_survivors_cancel (work.graphParams blake2b) cancel solver.maxEdgeBits
  rcases trims with ⟨stopped, k, inside, raised⟩ | same
  · rw [bind_of_ok _ _ _ stopped]
    exact Or.inl ⟨rfl, k, Nat.le_of_lt inside, raised⟩
  · rw [same]
    cases trimmed : trimSurvivorsCancellable (work.graphParams blake2b) solver.maxEdgeBits never with
    | error error => exact Or.inr rfl
    | ok found =>
      cases found with
      | none => exact Or.inr rfl
      | some survivors =>
        by_cases raised : cancel work.rounds = true
        · refine Or.inl ⟨?_, work.rounds, Nat.le_refl _, raised⟩
          exact if_pos raised
        · refine Or.inr ?_
          exact if_neg raised

/-- Without a flag a valid request gets an honest verdict. -/
theorem solve_never (valid : Valid work solver.capabilities) (made : Nat → Prop)
    (flag : Nat → Bool) :
    ∃ outcome, solver.solve blake2b work never = .ok outcome ∧
      Honest made flag (work.sipKeys blake2b) work.edgeBits work.cycleLength
        (SurvivorLimit (work.graphParams blake2b)) outcome := by
  have positive : 1 ≤ work.cycleLength := Nat.le_trans (by decide) valid.cycleLength.1
  have params : (work.graphParams blake2b).keys = work.sipKeys blake2b := rfl
  obtain ⟨survivors, trimmed⟩ := trim_survivors_total (work.graphParams blake2b)
    solver.maxEdgeBits never valid.edgeBits.2 valid.supported.2 fun _ => rfl
  obtain ⟨ascending, rounds, few, members⟩ := trim_survivors_spec (work.graphParams blake2b)
    solver.maxEdgeBits never survivors valid.edgeBits.2 trimmed
  have validated := (validate_request_iff _ _).mpr valid
  rw [CpuLeanSolver.solve, bind_of_ok _ _ _ validated]
  dsimp only
  rw [bind_of_ok _ _ _ trimmed]
  simp only [never, Bool.false_eq_true, if_false]
  cases searched : findCycle (work.graphParams blake2b) survivors with
  | ok found =>
    cases found with
    | some proof => exact ⟨_, rfl, find_cycle_sound _ survivors proof searched⟩
    | none =>
      refine ⟨_, rfl, fun proof accepted => ?_⟩
      have included := proof_survives (work.graphParams blake2b) _ never survivors proof
        valid.edgeBits positive trimmed accepted
      exact find_cycle_complete _ survivors proof valid.edgeBits positive included searched accepted
  | error error =>
    obtain ⟨enough, many, rfl⟩ := (find_cycle_error_iff _ _ _).mp searched
    exact ⟨_, rfl, survivors, rounds, few, ascending, members, enough, many, rfl⟩

/-- However the flag changes, a solve fails only if its request is refused; it is cancelled by a
    reading that found the flag raised, before one of its rounds or before the search, and
    otherwise comes to the honest verdict that it comes to without a flag. An inconclusive
    verdict is one whose search counts more branches than allowed. Nothing is assumed of the
    flag: it may be raised and lowered at will. -/
theorem cpu_solve_honest (solver : CpuLeanSolver) (blake2b : List UInt8 → Digest) (work : SolveRequest)
    (cancel : Nat → Bool) :
    Gives (solver.solve blake2b work cancel)
      (fun outcome => Valid work solver.capabilities ∧
        Honest (· ≤ work.rounds) cancel (work.sipKeys blake2b) work.edgeBits work.cycleLength
          (SurvivorLimit (work.graphParams blake2b)) outcome ∧
        (outcome = .cancelled ∨ solver.solve blake2b work never = .ok outcome))
      (fun error => validateRequest work solver.capabilities = .error error) := by
  cases validated : validateRequest work solver.capabilities with
  | error error =>
    rw [CpuLeanSolver.solve, validated]
    exact gives_error rfl
  | ok accepted =>
    cases accepted
    have valid := (validate_request_iff _ _).mp validated
    rcases @solve_cancel cancel solver blake2b work valid with ⟨stopped, k, inside, raised⟩ | same
    · rw [stopped]
      exact gives_ok ⟨valid, ⟨k, inside, raised⟩, Or.inl rfl⟩
    · obtain ⟨outcome, solved, honest⟩ :=
        @solve_never solver blake2b work valid (· ≤ work.rounds) cancel
      rw [same, solved]
      exact gives_ok ⟨valid, honest, Or.inr rfl⟩

end CuckatooMiner.CpuSolve
