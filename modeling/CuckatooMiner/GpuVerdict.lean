import Mathlib
import CuckatooMiner.PeelTrimmed
import CuckatooMiner.D2

/-!
# Verdicts of the GPU solver

A verdict trims for some number of rounds on the GPU, peels the survivors down to
their core and searches it with two-step arcs. The solver first asks for a verdict
after at most 128 rounds, and for one after all rounds when the first was
inconclusive.

The trim itself is a parameter. It is assumed to list the edges that survive its
rounds, in any order. Rounds never touch the core, so every verdict is about the
same graph whatever the number of rounds was.

The peeler is the one with stored numbers of groups. That a proof verifies does not depend
on it. That no proof was passed over does, so in graphs of thirty-two edge bits the groups
that the early rounds leave are assumed to be numbered; smaller graphs never have more.
-/

namespace CuckatooMiner.GpuVerdict

open SipHash Verify Solver Pruning TwoCore Peel PeelTrimmed D2
open Outcome (bind_ok_iff map_error_ok_iff)

/-- How a trim ends. -/
inductive TrimOutcome
  | survivors (survivors : List Nat)
  | cancelled
  | diagnostic (message : String)
deriving DecidableEq, Repr

/-- A trim of the graph of a request for a number of rounds. -/
abbrev Trim := GraphParams → (rounds : Nat) → (liveWork : Bool) → Except SolveError TrimOutcome

/-- The rounds before the first verdict. -/
def earlyVerdictRound : Nat := 128

/-- How a solve can fail: with an error, or where a count of the peeler drops below zero. -/
inductive Fault
  | solver (error : SolveError)
  | underflow
deriving DecidableEq, Repr

/-- The verdict that a search comes to. -/
def conclude (searched : Except SolveError (Option Proof)) : Except SolveError SolveOutcome :=
  match searched with
  | .ok (some proof) => .ok (.proof proof)
  | .ok none => .ok .noCycle
  | .error (.searchLimit reason) => .ok (.inconclusive reason)
  | .error error => .error error

/-- Trim, peel and search. The cancel flag is read once between peeling and the
    search; its value there is given for each number of rounds. -/
def verdictAtRound (trim : Trim) (request : GraphParams) (rounds : Nat) (liveWork : Bool)
    (cancel : Nat → Bool) : Except Fault SolveOutcome := do
  match ← (trim request rounds liveWork).mapError .solver with
  | .cancelled => .ok .cancelled
  | .diagnostic message => .ok (.inconclusive message)
  | .survivors survivors =>
      let survivors ← peel .solver .underflow request survivors
      if cancel rounds then .ok .cancelled
      else (conclude (findCycleD2 request survivors)).mapError .solver

/-- What the solver can solve. -/
def capabilities : BackendCapabilities := ⟨1, 32, 42⟩

/-- Solve a request: an early verdict, and one after all rounds when the early one
    is inconclusive for another reason than a diagnostic run. -/
def solve (trim : Trim) (blake2b : List UInt8 → Digest) (resultOnlyDiagnostic : Bool)
    (request : SolveRequest) (cancel : Nat → Bool) : Except Fault SolveOutcome := do
  (validateRequest request capabilities).mapError .solver
  let params := request.graphParams blake2b
  let earlyRound := min params.rounds earlyVerdictRound
  match ← verdictAtRound trim params earlyRound request.liveWork cancel with
  | .inconclusive reason =>
      if resultOnlyDiagnostic = false ∧ params.rounds > earlyRound then
        verdictAtRound trim params params.rounds request.liveWork cancel
      else .ok (.inconclusive reason)
  | outcome => .ok outcome

/-- The trim lists, in some order and once each, the edges that survive its rounds. -/
def Exact (trim : Trim) (request : GraphParams) : Prop :=
  ∀ rounds liveWork survivors, 1 ≤ rounds →
    trim request rounds liveWork = .ok (.survivors survivors) →
      survivors.Nodup ∧ ∀ edge, edge ∈ survivors ↔
        edge ∈ trimRounds (Complementary request.keys request.edgeBits)
          (graph request.edgeBits) rounds

/-- Where a search was concluded with a proof, it found it. -/
theorem conclude_cases (searched : Except SolveError (Option Proof)) (found : Option Proof)
    (concluded : conclude searched = .ok (found.elim .noCycle .proof)) : searched = .ok found := by
  unfold conclude at concluded
  split at concluded
  · cases found with
    | none => cases concluded
    | some other =>
      cases concluded
      rfl
  · cases found with
    | none => rfl
    | some other => cases concluded
  · cases found <;> cases concluded
  · cases concluded

section

variable {trim : Trim} {request : GraphParams} {rounds : Nat} {liveWork : Bool}
  {cancel : Nat → Bool}

/-- A proof or the absence of a cycle is what the search said about the peeled
    survivors of the trim. -/
theorem verdict_cases (found : Option Proof)
    (verdict : verdictAtRound trim request rounds liveWork cancel =
      .ok (found.elim .noCycle .proof)) :
    ∃ survivors peeled, trim request rounds liveWork = .ok (.survivors survivors) ∧
      peel Fault.solver .underflow request survivors = .ok peeled ∧
      findCycleD2 request peeled = .ok found := by
  obtain ⟨trimmed, trim_ended, rest⟩ := (bind_ok_iff _ _ _).mp verdict
  rw [map_error_ok_iff] at trim_ended
  cases trimmed with
  | cancelled => cases found <;> cases rest
  | diagnostic message => cases found <;> cases rest
  | survivors survivors =>
    obtain ⟨peeled, peel_ended, searched⟩ := (bind_ok_iff _ _ _).mp rest
    refine ⟨survivors, peeled, trim_ended, peel_ended, ?_⟩
    split at searched
    · cases found <;> cases searched
    · exact conclude_cases _ found ((map_error_ok_iff _ _ _).mp searched)

/-- Where a count of the peeler drops below zero, the peeler was at work on the survivors of
    the trim. -/
theorem verdict_underflow
    (verdict : verdictAtRound trim request rounds liveWork cancel = .error .underflow) :
    ∃ survivors, trim request rounds liveWork = .ok (.survivors survivors) ∧
      peel Fault.solver .underflow request survivors = .error .underflow := by
  unfold verdictAtRound at verdict
  cases trim_ended : trim request rounds liveWork with
  | error error =>
    rw [trim_ended] at verdict
    cases verdict
  | ok trimmed =>
    rw [trim_ended] at verdict
    cases trimmed with
    | cancelled => cases verdict
    | diagnostic message => cases verdict
    | survivors survivors =>
      refine ⟨survivors, rfl, ?_⟩
      cases peel_ended : peel Fault.solver .underflow request survivors with
      | error fault =>
        simp only [Except.mapError, bind, Except.bind, peel_ended] at verdict
        cases verdict
        rfl
      | ok peeled =>
        simp only [Except.mapError, bind, Except.bind, peel_ended] at verdict
        split at verdict
        · cases verdict
        · split at verdict <;> cases verdict

/-- What is left after an exact trim and peeling is the core of the graph. -/
theorem peeled_is_core (inRange : request.edgeBits ≤ 32) (exact : Exact trim request)
    (positive : 1 ≤ rounds) (numbered : Numbered request.keys request.edgeBits rounds)
    {survivors peeled : List Nat}
    (trimmed : trim request rounds liveWork = .ok (.survivors survivors))
    (peel_ended : peel Fault.solver .underflow request survivors = .ok peeled) :
    ListsCore request.keys request.edgeBits peeled := by
  obtain ⟨unique, members⟩ := exact rounds liveWork survivors positive trimmed
  exact ((peel_gives inRange unique members numbered).returned peeled peel_ended).1

/-- A proof of any verdict verifies. -/
theorem verdict_proof (proof : Proof)
    (verdict : verdictAtRound trim request rounds liveWork cancel = .ok (.proof proof)) :
    verifyCycle request.keys request.edgeBits request.cycleLength proof = .ok () := by
  obtain ⟨_, peeled, _, _, found⟩ := verdict_cases (some proof) verdict
  exact find_cycle_d2_sound request peeled proof found

/-- A verdict without a cycle is right about the whole graph. -/
theorem verdict_no_cycle (inRange : 1 ≤ request.edgeBits ∧ request.edgeBits ≤ 32)
    (cycle : 1 ≤ request.cycleLength) (exact : Exact trim request) (positive : 1 ≤ rounds)
    (numbered : Numbered request.keys request.edgeBits rounds)
    (verdict : verdictAtRound trim request rounds liveWork cancel = .ok .noCycle)
    (proof : Proof) :
    verifyCycle request.keys request.edgeBits request.cycleLength proof ≠ .ok () := by
  obtain ⟨_, peeled, trimmed, peel_ended, ended⟩ := verdict_cases none verdict
  have core := peeled_is_core inRange.2 exact positive numbered trimmed peel_ended
  intro accepted
  have alternating := (verify_cycle_iff _ _ _ _ inRange cycle).mp accepted
  have included : proof.nonces ⊆ peeled := fun edge member =>
    (core.members edge).mpr (cycle_in_core alternating edge member)
  exact find_cycle_d2_complete request peeled proof inRange cycle included ended accepted

/-- After an exact trim no count of the peeler drops below zero. -/
theorem verdict_no_underflow (inRange : request.edgeBits ≤ 32) (exact : Exact trim request)
    (positive : 1 ≤ rounds) (numbered : Numbered request.keys request.edgeBits rounds) :
    verdictAtRound trim request rounds liveWork cancel ≠ .error .underflow := by
  intro verdict
  obtain ⟨survivors, trimmed, failed⟩ := verdict_underflow verdict
  obtain ⟨unique, members⟩ := exact rounds liveWork survivors positive trimmed
  obtain ⟨_, same, _⟩ := (peel_gives inRange unique members numbered).failed _ failed
  cases same

end

variable (trim : Trim) (blake2b : List UInt8 → Digest) (resultOnlyDiagnostic : Bool)
  (request : SolveRequest) (cancel : Nat → Bool)

/-- What a solve of a valid request comes to, a verdict comes to after at least the early
    rounds. -/
theorem solve_is_a_verdict (result : Except Fault SolveOutcome)
    (solved : solve trim blake2b resultOnlyDiagnostic request cancel = result)
    (valid : Valid request capabilities) :
    ∃ rounds, 1 ≤ rounds ∧ min request.rounds earlyVerdictRound ≤ rounds ∧
      verdictAtRound trim (request.graphParams blake2b) rounds request.liveWork cancel = result := by
  have validated := (validate_request_iff _ _).mpr valid
  have some_rounds := valid.rounds
  have early_rounds : 1 ≤ min request.rounds earlyVerdictRound := by
    unfold earlyVerdictRound
    omega
  have params : (request.graphParams blake2b).rounds = request.rounds := rfl
  rw [solve, validated] at solved
  simp only [Except.mapError, bind, Except.bind, params] at solved
  cases early : verdictAtRound trim (request.graphParams blake2b)
      (min request.rounds earlyVerdictRound) request.liveWork cancel with
  | error fault =>
    rw [early] at solved
    exact ⟨_, early_rounds, Nat.le_refl _, early.trans solved⟩
  | ok outcome =>
    rw [early] at solved
    simp only at solved
    split at solved
    · split at solved
      · exact ⟨request.rounds, by omega, Nat.min_le_left _ _, solved⟩
      · exact ⟨_, early_rounds, Nat.le_refl _, early.trans solved⟩
    · exact ⟨_, early_rounds, Nat.le_refl _, early.trans solved⟩

/-- A request that is not valid is refused with an error. -/
theorem solve_valid (result : Except Fault SolveOutcome)
    (solved : solve trim blake2b resultOnlyDiagnostic request cancel = result)
    (accepted : ∀ error, result ≠ .error (.solver error)) : Valid request capabilities := by
  cases validated : validateRequest request capabilities with
  | error error =>
    rw [solve, validated] at solved
    exact absurd solved.symm (accepted error)
  | ok accepted =>
    cases accepted
    exact (validate_request_iff _ _).mp validated

/-- The groups that some rounds leave are numbered, as they always are in graphs of up to
    thirty-one edge bits. -/
def GroupsFit (keys : SipKeys) (edgeBits rounds : Nat) : Prop :=
  edgeBits ≤ 31 ∨ Numbered keys edgeBits rounds

/-- Groups that fit after some rounds fit after more. -/
theorem GroupsFit.numbered {keys : SipKeys} {edgeBits fewer rounds : Nat}
    (fits : GroupsFit keys edgeBits fewer) (inRange : edgeBits ≤ 32) (more : fewer ≤ rounds) :
    Numbered keys edgeBits rounds :=
  fits.elim numbered_of_small fun numbered => numbered.later inRange more

/-- Rounds of trimming on a list, each comparing all pairs of edges. -/
def listTrim (keys : SipKeys) (edgeBits : Nat) : Nat → List Nat
  | 0 => List.range (2 ^ edgeBits)
  | round + 1 =>
      let before := listTrim keys edgeBits round
      before.filter fun e => before.any fun f =>
        endpoint keys edgeBits f (round % 2) = endpoint keys edgeBits e (round % 2) ^^^ 1

/-- Trimming on a list leaves the survivors of its rounds. -/
theorem list_trim_spec (keys : SipKeys) (edgeBits rounds : Nat) :
    (listTrim keys edgeBits rounds).Nodup ∧ ∀ edge, edge ∈ listTrim keys edgeBits rounds ↔
      edge ∈ trimRounds (Complementary keys edgeBits) (graph edgeBits) rounds := by
  induction rounds with
  | zero =>
    refine ⟨List.nodup_range, fun edge => ?_⟩
    unfold listTrim trimRounds graph
    rw [List.mem_range, Set.mem_ofPred_eq]
  | succ round ih =>
    obtain ⟨unique, members⟩ := ih
    refine ⟨unique.filter _, fun edge => ?_⟩
    unfold listTrim trimRounds trimSide
    simp only [List.mem_filter, List.any_eq_true, decide_eq_true_eq, Set.mem_ofPred_eq, members]
    rfl

/-- Trims on lists are exact. -/
theorem list_trim_exact (request : GraphParams) :
    Exact (fun params rounds _ =>
      .ok (.survivors (listTrim params.keys params.edgeBits rounds))) request := by
  intro rounds liveWork survivors _ trimmed
  cases trimmed
  exact list_trim_spec request.keys request.edgeBits rounds

end CuckatooMiner.GpuVerdict
