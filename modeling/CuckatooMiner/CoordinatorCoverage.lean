import Mathlib
import CuckatooMiner.CoordinatorShares
import CuckatooMiner.HonestSolver

/-!
# Nonces left behind

The loop goes to the next nonce of a template only when the current one is settled: its solve
failed on the GPU, found no cycle, could not tell, or found a cycle that is too easy or was
sent. A cancelled solve settles nothing, and the loop comes back to its nonce unless another
template has taken its place. So, with an honest solver, no cycle of the nonces left behind is
passed over silently; and the loop calls the nonces exhausted only if all of them are settled.
-/

namespace CuckatooMiner.Coordinator

open SipHash Verify Solver ProofDifficulty

/-- The request for a nonce of a header. -/
def requestAt (config : MineConfig) (prePow : List UInt8) (nonce : BitVec 64) : SolveRequest :=
  ⟨prePow, nonce, true, config.edgeBits, config.cycleLength, config.rounds⟩

section

variable (world : World) (config : MineConfig) (history : List Observation)

/-- A list of edges is a cycle of the graph of a nonce. -/
def IsCycle (prePow : List UInt8) (nonce : BitVec 64) (proof : Proof) : Prop :=
  verifyCycle (deriveKeys world.blake2b prePow nonce) config.edgeBits config.cycleLength proof =
    .ok ()

/-- A verified share for a nonce of a job was written to the network. Whether the node accepted
    it is left out. -/
def Sent (job : Job) (prePow : List UInt8) (nonce : BitVec 64) : Prop :=
  ∃ share, Observation.written prePow share ∈ history ∧ share.nonce = nonce ∧
    VerifiedShare world config history share job prePow

/-- The cycle that was found for a nonce is easier than the job asks. Other cycles of the same
    graph, which the solver did not return, are left out. -/
def TooEasy (job : Job) (prePow : List UInt8) (nonce : BitVec 64) : Prop :=
  ∃ proof, Observation.solved (requestAt config prePow nonce) (.ok (.proof proof)) ∈ history ∧
    IsCycle world config prePow nonce proof ∧
    unscaledProofDifficulty world.blake2b proof config.edgeBits < job.difficulty

/-- The solver could not tell whether there is a cycle. -/
def Undecided (prePow : List UInt8) (nonce : BitVec 64) : Prop :=
  ∃ reason, Observation.solved (requestAt config prePow nonce) (.ok (.inconclusive reason)) ∈ history

/-- The solver failed on the GPU. -/
def Failed (prePow : List UInt8) (nonce : BitVec 64) : Prop :=
  ∃ reason, Observation.solved (requestAt config prePow nonce) (.error (.gpu reason)) ∈ history

/-- What has become of a nonce that was left behind. A nonce may be settled in more than one
    way, since a job that is handed out again is searched again. -/
inductive Settled (job : Job) (prePow : List UInt8) (nonce : BitVec 64) : Prop
  | sent (sent : Sent world config history job prePow nonce)
  | tooEasy (easy : TooEasy world config history job prePow nonce)
  | fruitless (solved : Observation.solved (requestAt config prePow nonce) (.ok .noCycle) ∈ history)
  | undecided (undecided : Undecided config history prePow nonce)
  | failed (failed : Failed config history prePow nonce)

/-- All nonces of the current job before the current one are settled. -/
def Covered (locals : Locals) : Prop :=
  ∀ nonce : BitVec 64, config.nonceStart.toNat ≤ nonce.toNat → nonce.toNat < locals.nonce.toNat →
    Settled world config history locals.currentJob locals.prePow nonce

/-- All nonces of some job that was handed out are settled. -/
def Exhausted : Prop :=
  ∃ job prePow, Observation.received job ∈ history ∧ world.decodeHex job.prePow = some prePow ∧
    ∀ nonce : BitVec 64, config.nonceStart.toNat ≤ nonce.toNat →
      Settled world config history job prePow nonce

/-- What the variables in scope say about the nonces. -/
def PhaseCovered : Phase → Prop
  | .requesting before | .comparing before _ | .publishing before _ | .reconnecting before
  | .connecting before | .loggingIn before => ∀ locals ∈ before, Covered world config history locals
  | .readingJob _ => True
  | .readingConnection locals | .loopHead locals | .solving locals _ | .completed locals _ _
  | .examining locals _ _ => Covered world config history locals
  | .recovering locals => Covered world config history locals ∧
      Settled world config history locals.currentJob locals.prePow locals.nonce
  | .submitting locals share written => Covered world config history locals ∧
      share.nonce = locals.nonce ∧
      (written = true → Observation.written locals.prePow share ∈ history)
  | .finished result => result = .error "nonce space exhausted at u64::MAX" →
      Exhausted world config history

end

variable {world : World} {config : MineConfig} {history longer : List Observation} {locals : Locals}

/-! ## Later observations -/

/-- A verified share stays verified. -/
theorem VerifiedShare.later {share : SubmitParams} {job : Job} {prePow : List UInt8}
    (verified : VerifiedShare world config history share job prePow) (kept : history ⊆ longer) :
    VerifiedShare world config longer share job prePow :=
  { verified with received := kept verified.received, solved := kept verified.solved }

/-- A settled nonce stays settled. -/
theorem Settled.later {job : Job} {prePow : List UInt8} {nonce : BitVec 64}
    (settled : Settled world config history job prePow nonce) (kept : history ⊆ longer) :
    Settled world config longer job prePow nonce := by
  cases settled with
  | sent sent =>
    obtain ⟨share, written, same, verified⟩ := sent
    exact .sent ⟨share, kept written, same, verified.later kept⟩
  | tooEasy easy =>
    obtain ⟨proof, solved, cycle, less⟩ := easy
    exact .tooEasy ⟨proof, kept solved, cycle, less⟩
  | fruitless solved => exact .fruitless (kept solved)
  | undecided undecided =>
    obtain ⟨reason, solved⟩ := undecided
    exact .undecided ⟨reason, kept solved⟩
  | failed failed =>
    obtain ⟨reason, solved⟩ := failed
    exact .failed ⟨reason, kept solved⟩

/-- Covered nonces stay covered. -/
theorem Covered.later (covered : Covered world config history locals) (kept : history ⊆ longer) :
    Covered world config longer locals :=
  fun nonce first before => (covered nonce first before).later kept

/-- So does what a phase says. -/
theorem phase_covered_later (phase : Phase) (kept : history ⊆ longer)
    (covered : PhaseCovered world config history phase) : PhaseCovered world config longer phase := by
  cases phase with
  | readingJob job => trivial
  | readingConnection locals => exact Covered.later covered kept
  | loopHead locals => exact Covered.later covered kept
  | solving locals solve => exact Covered.later covered kept
  | completed locals keys outcome => exact Covered.later covered kept
  | examining locals keys outcome => exact Covered.later covered kept
  | recovering locals => exact ⟨Covered.later covered.1 kept, covered.2.later kept⟩
  | submitting locals share written =>
    exact ⟨Covered.later covered.1 kept, covered.2.1, fun sent => kept (covered.2.2 sent)⟩
  | finished result =>
    intro exhausted
    obtain ⟨job, prePow, received, header, settled⟩ := covered exhausted
    exact ⟨job, prePow, kept received, header, fun nonce first => (settled nonce first).later kept⟩
  | _ => exact fun locals member => Covered.later (covered locals member) kept

/-! ## Steps -/

/-- Going on from a settled nonce keeps the nonces covered. After the last one all are settled. -/
theorem advance_covered (current : Current world history locals)
    (covered : Covered world config history locals)
    (settled : Settled world config history locals.currentJob locals.prePow locals.nonce) :
    PhaseCovered world config history (advance locals) := by
  have up_to (nonce : BitVec 64) (first : config.nonceStart.toNat ≤ nonce.toNat)
      (before : nonce.toNat ≤ locals.nonce.toNat) :
      Settled world config history locals.currentJob locals.prePow nonce := by
    rcases Nat.lt_or_eq_of_le before with less | same
    · exact covered nonce first less
    · rwa [BitVec.eq_of_toNat_eq same]
  unfold advance nextNonce
  by_cases room : locals.nonce.toNat + 1 < 2 ^ 64
  · rw [if_pos room]
    intro nonce first before
    have larger : (locals.nonce + 1).toNat = locals.nonce.toNat + 1 := by
      rw [BitVec.toNat_add]
      exact Nat.mod_eq_of_lt room
    change nonce.toNat < (locals.nonce + 1).toNat at before
    exact up_to nonce first (by omega)
  · rw [if_neg room]
    intro _
    refine ⟨locals.currentJob, locals.prePow, current.received, current.header, fun nonce first => ?_⟩
    have below := nonce.isLt
    exact up_to nonce first (by omega)

/-- Taking a job over leaves no nonce behind. -/
theorem take_over_covered (job : Job) :
    PhaseCovered world config history (takeOver world config locals job) := by
  unfold takeOver
  split
  · intro other
    simp at other
  · intro nonce first before
    exact absurd before (Nat.not_lt.mpr first)

/-- Nor does acquiring it. -/
theorem acquired_covered (before : Option Locals) (job : Job) :
    PhaseCovered world config history (acquired world config before job) := by
  cases before with
  | none => trivial
  | some locals => exact take_over_covered job

/-- At start-up no nonce is left behind. -/
theorem start_up_covered (job : Job) (latest : Option Job) :
    PhaseCovered world config history (startUp world config job latest) := by
  unfold startUp
  dsimp only
  split
  · intro other
    simp at other
  · intro nonce first before
    exact absurd before (Nat.not_lt.mpr first)

/-- Texts that begin differently differ. -/
theorem other_text {text other suffix : String} (begins : text.toList.head? ≠ other.toList.head?)
    (filled : text ≠ "") : text ++ suffix ≠ other := by
  intro same
  apply begins
  have characters := congrArg (fun joined : String => joined.toList.head?) same
  rw [← characters]
  simp only [String.toList_append]
  rw [List.head?_append_of_ne_nil]
  simpa using filled

/-- The answer of a solver settles the nonce if it is a failure on the GPU. -/
theorem after_solve_covered (solve : Solve) (result : Except SolveError SolveOutcome)
    (request : solve.request = requestFor config locals)
    (covered : Covered world config history locals) :
    PhaseCovered world config (.solved solve.request result :: history)
      (afterSolve locals solve result) := by
  have kept : history ⊆ .solved solve.request result :: history := List.subset_cons_self _ _
  unfold afterSolve
  split
  · exact Covered.later covered kept
  · rename_i reason
    dsimp only
    split
    · intro other
      simp at other
    · refine ⟨Covered.later covered kept, .failed ⟨reason, ?_⟩⟩
      rw [request]
      exact List.mem_cons_self
  · intro other
    rw [Except.error.injEq] at other
    exact absurd other (other_text (by decide) (by decide))

/-- Every outcome but a cancelled one settles the nonce, or a share is about to be sent. -/
theorem use_outcome_covered (keys : SipKeys) (outcome : SolveOutcome)
    (current : Current world history locals)
    (answered : Answered world config history locals keys outcome)
    (covered : Covered world config history locals) :
    PhaseCovered world config history (useOutcome world config locals keys outcome) := by
  have solved := answered.solved
  unfold useOutcome
  split
  · rename_i proof
    split
    · intro other
      simp at other
    · rename_i verified
      dsimp only
      split
      · exact ⟨covered, rfl, fun sent => by cases sent⟩
      · rename_i less
        rw [answered.keys] at verified
        exact advance_covered current covered
          (.tooEasy ⟨proof, solved, verified, Nat.lt_of_not_le less⟩)
  · exact advance_covered current covered (.fruitless solved)
  · exact covered
  · rename_i reason
    exact advance_covered current covered (.undecided ⟨reason, solved⟩)

/-- So does examining the latest job first. -/
theorem examine_covered (keys : SipKeys) (outcome : SolveOutcome) (latest : Option Job)
    (current : Current world history locals)
    (answered : Answered world config history locals keys outcome)
    (covered : Covered world config history locals) :
    PhaseCovered world config history (examine world config locals keys outcome latest) := by
  unfold examine
  split
  · rename_i job stale
    exact take_over_covered job
  · exact use_outcome_covered keys outcome current answered covered

/-- Whatever the node answers to a share, the nonce is settled. -/
theorem after_submit_covered (answer : SubmitOutcome) (current : Current world history locals)
    (covered : Covered world config history locals)
    (settled : Settled world config history locals.currentJob locals.prePow locals.nonce) :
    PhaseCovered world config history (afterSubmit locals answer) := by
  unfold afterSubmit
  split
  · exact advance_covered current covered settled
  · split
    · exact advance_covered current covered settled
    · rename_i code message unexpected
      intro other
      rw [Except.error.injEq, String.append_assoc, String.append_assoc] at other
      exact absurd other (other_text (by decide) (by decide))

/-- Every step keeps the nonces covered. -/
theorem step_covered (state : State world) (event : Event) (next : State world)
    (sound : Sound world config state) (covered : PhaseCovered world config state.history state.phase)
    (stepped : step world config state event = some next) :
    PhaseCovered world config next.history next.phase := by
  have holds := sound.phase
  cases step_cases stepped with
  | jobPushed job valid => exact phase_covered_later _ (List.subset_cons_self _ _) covered
  | connectionLost => exact covered
  | jobRequestFailed before phase =>
    rw [phase] at covered
    exact covered
  | templateReceived before template phase valid =>
    rw [phase] at covered
    exact phase_covered_later (.comparing before template) (List.subset_cons_self _ _) covered
  | pushPreferred before template pushed phase newer => exact acquired_covered before pushed
  | templatePreferred before template phase older =>
    rw [phase] at covered
    exact covered
  | templatePublished before template phase => exact acquired_covered before template
  | disconnected before phase =>
    rw [phase] at covered
    exact covered
  | connectFailed before phase =>
    rw [phase] at covered
    exact covered
  | reconnected before phase =>
    rw [phase] at covered
    exact covered
  | loginFailed before phase =>
    rw [phase] at covered
    exact covered
  | loggedIn before phase =>
    rw [phase] at covered
    exact covered
  | jobRead job phase => exact start_up_covered job _
  | connectionRead locals phase =>
    rw [phase] at covered
    exact covered
  | loopEntered locals phase =>
    rw [phase] at covered
    change PhaseCovered world config state.history (enterLoop world config locals)
    unfold enterLoop
    split
    · exact covered
    · intro other
      cases other
  | jobChanged locals solve phase ready =>
    rw [phase] at covered
    exact covered
  | jobChannelClosed locals solve phase listening =>
    rw [phase] at covered
    exact covered
  | connectionChanged locals solve phase ready =>
    rw [phase] at covered
    exact covered
  | connectionChannelClosed locals solve phase listening =>
    rw [phase] at covered
    exact covered
  | solved locals solve result phase =>
    rw [phase] at covered holds
    exact after_solve_covered solve result holds.2.1 covered
  | solverPanicked locals solve phase =>
    intro other
    simp at other
  | recovered locals phase =>
    rw [phase] at covered holds
    exact advance_covered holds covered.1 covered.2
  | recoveryPanicked locals phase =>
    intro other
    simp at other
  | connectionStands locals keys outcome phase connected =>
    rw [phase] at covered
    exact covered
  | connectionGone locals keys outcome phase lost =>
    rw [phase] at covered
    intro before same
    cases same
    exact covered
  | jobExamined locals keys outcome phase =>
    rw [phase] at covered holds
    exact examine_covered keys outcome _ holds.1 holds.2 covered
  | submitWritten locals share phase =>
    rw [phase] at covered
    obtain ⟨before, same, _⟩ := covered
    exact ⟨Covered.later before (List.subset_cons_self _ _), same, fun _ => List.mem_cons_self⟩
  | submitAnswered locals share answer phase =>
    rw [phase] at covered holds
    obtain ⟨before, same, written⟩ := covered
    exact after_submit_covered answer holds.1 before (.sent ⟨share, written rfl, same, holds.2⟩)
  | submitFailed locals share written phase =>
    rw [phase] at covered
    intro before same
    cases same
    exact covered.1

/-! ## Runs -/

/-- The variables of the loop, also while a job is requested. -/
def Phase.scope : Phase → Option Locals
  | .requesting before | .comparing before _ | .publishing before _ | .reconnecting before
  | .connecting before | .loggingIn before => before
  | .readingConnection locals | .loopHead locals | .solving locals _ | .recovering locals
  | .completed locals _ _ | .examining locals _ _ | .submitting locals _ _ => some locals
  | .readingJob _ | .finished _ => none

/-- Where there are variables, the nonces before the current one are covered. -/
theorem covered_of_scope {phase : Phase} (covered : PhaseCovered world config history phase)
    (scope : phase.scope = some locals) : Covered world config history locals := by
  cases phase with
  | readingJob job => cases scope
  | finished result => cases scope
  | readingConnection others =>
    cases scope
    exact covered
  | loopHead others =>
    cases scope
    exact covered
  | solving others solve =>
    cases scope
    exact covered
  | completed others keys outcome =>
    cases scope
    exact covered
  | examining others keys outcome =>
    cases scope
    exact covered
  | recovering others =>
    cases scope
    exact covered.1
  | submitting others share written =>
    cases scope
    exact covered.1
  | _ => exact covered locals scope

/-- In every state of a run the nonces left behind are covered. -/
theorem mine_covered (length : config.cycleLength = 42) {events : List Event} {state : State world}
    (ran : mine world config events = some state) :
    PhaseCovered world config state.history state.phase := by
  have initial : Sound world config (start world config) ∧
      PhaseCovered world config (start world config).history (start world config).phase := by
    unfold start
    rw [if_neg (not_not.mpr length)]
    refine ⟨⟨trivial, fun job latest => ?_⟩, fun locals member => by cases member⟩
    rw [world.jobs.borrow_channel] at latest
    cases latest
  exact (Runs.run_invariant
    (fun state => Sound world config state ∧ PhaseCovered world config state.history state.phase)
    (fun state event next holds stepped => ⟨step_sound length state event next holds.1 stepped,
      step_covered state event next holds.1 holds.2 stepped⟩) initial ran).2

/-- Every verdict in a history was given by a solver. Errors and panics are not verdicts, and
    may come at any time. -/
def VerdictsOf {blake2b : List UInt8 → Digest} (solver : HonestSolver blake2b)
    (history : List Observation) : Prop :=
  ∀ request outcome, Observation.solved request (.ok outcome) ∈ history →
    ∃ flag, solver.Answers request flag outcome

/-- A settled nonce with a cycle has not been passed over. -/
theorem settled_cycle {solver : HonestSolver world.blake2b} (verdicts : VerdictsOf solver history)
    {job : Job} {prePow : List UInt8} {nonce : BitVec 64}
    (settled : Settled world config history job prePow nonce)
    (cycle : ∃ proof, IsCycle world config prePow nonce proof) :
    Sent world config history job prePow nonce ∨ TooEasy world config history job prePow nonce ∨
      Undecided config history prePow nonce ∨ Failed config history prePow nonce := by
  cases settled with
  | sent sent => exact Or.inl sent
  | tooEasy easy => exact Or.inr (Or.inl easy)
  | undecided undecided => exact Or.inr (Or.inr (Or.inl undecided))
  | failed failed => exact Or.inr (Or.inr (Or.inr failed))
  | fruitless solved =>
    obtain ⟨flag, answers⟩ := verdicts _ _ solved
    obtain ⟨proof, accepted⟩ := cycle
    have without : ∀ proof, ¬ IsCycle world config prePow nonce proof :=
      solver.honest _ _ _ answers
    exact absurd accepted (without proof)

/-- With an honest solver the loop passes no cycle over, whatever the node, the connection and the
    flag do. In every state of every run, each nonce of the current job from the first one up to
    the current one is settled: if its graph has a cycle, then a verified share of it was sent for
    this job, or the cycle that was found is easier than the job asks, or the solver could not
    tell, or it failed on the GPU. And the loop ends with the nonces exhausted only if this holds
    of all nonces from the first one on, for some job that was handed out. -/
theorem no_cycle_passed_over (world : World) (config : MineConfig) (solver : HonestSolver world.blake2b)
    (events : List Event) (state : State world) (ran : mine world config events = some state)
    (verdicts : VerdictsOf solver state.history) :
    (∀ locals, state.phase.scope = some locals → ∀ nonce : BitVec 64,
      config.nonceStart.toNat ≤ nonce.toNat → nonce.toNat < locals.nonce.toNat →
      (∃ proof, IsCycle world config locals.prePow nonce proof) →
      Sent world config state.history locals.currentJob locals.prePow nonce ∨
        TooEasy world config state.history locals.currentJob locals.prePow nonce ∨
        Undecided config state.history locals.prePow nonce ∨
        Failed config state.history locals.prePow nonce) ∧
    (state.phase = .finished (.error "nonce space exhausted at u64::MAX") →
      ∃ job prePow, Observation.received job ∈ state.history ∧
        world.decodeHex job.prePow = some prePow ∧ ∀ nonce : BitVec 64,
        config.nonceStart.toNat ≤ nonce.toNat →
        (∃ proof, IsCycle world config prePow nonce proof) →
        Sent world config state.history job prePow nonce ∨
          TooEasy world config state.history job prePow nonce ∨
          Undecided config state.history prePow nonce ∨ Failed config state.history prePow nonce) := by
  by_cases length : config.cycleLength = 42
  · have covered := mine_covered length ran
    constructor
    · intro locals scope nonce first before cycle
      exact settled_cycle verdicts (covered_of_scope covered scope nonce first before) cycle
    · intro finished
      rw [finished] at covered
      obtain ⟨job, prePow, received, header, settled⟩ := covered (Eq.refl _)
      exact ⟨job, prePow, received, header, fun nonce first cycle =>
        settled_cycle verdicts (settled nonce first) cycle⟩
  · have refused := Runs.run_invariant
      (fun state => state.phase =
        .finished (.error "Grin Stratum submission requires --cycle-length 42"))
      (finished_stays _) (by unfold start; rw [if_pos length]) ran
    constructor
    · intro locals scope
      rw [refused] at scope
      cases scope
    · intro finished
      rw [refused] at finished
      simp at finished

/-- The run that submits the proof, with the share accepted. -/
def c18Accepted : List Event := c18Submission ++ [.submitWritten, .submitAnswered .accepted]

/-- What the run has shown at its end. -/
def c18History : List Observation :=
  [.written [0] ⟨18, 10, 0, 69, c18Proof⟩,
    .solved ⟨[0], 69, true, 18, 42, 128⟩ (.ok (.proof ⟨c18Proof⟩)), .received c18Job]

/-- The solver of the run is honest. -/
theorem c18_verdicts : VerdictsOf (.widest c18World.blake2b ⟨1, 28, 42⟩) c18History := by
  intro request outcome member
  simp only [c18History, List.mem_cons, List.not_mem_nil, or_false, reduceCtorEq, false_or,
    Observation.solved.injEq, Except.ok.injEq] at member
  obtain ⟨rfl, rfl⟩ := member
  refine ⟨fun _ => false, (validate_request_iff _ _).mp (by decide), ?_⟩
  change verifyCycle _ _ _ _ = .ok ()
  decide +kernel

/-- The run leaves the nonce of the proof behind, and has sent a share or found it too easy. -/
theorem c18_nonce_covered :
    ∃ state, mine c18World c18Config c18Accepted = some state ∧
      (Sent c18World c18Config state.history c18Job [0] 69 ∨
        TooEasy c18World c18Config state.history c18Job [0] 69 ∨
        Undecided c18Config state.history [0] 69 ∨ Failed c18Config state.history [0] 69) := by
  have reached : (mine c18World c18Config c18Accepted).map
      (fun state => (state.phase.scope, state.history)) =
      some (some ⟨c18Job, [0], 70, 1, 0⟩, c18History) := by decide +kernel
  obtain ⟨state, ran, shown⟩ := Option.map_eq_some_iff.mp reached
  rw [Prod.mk.injEq] at shown
  obtain ⟨scope, history⟩ := shown
  have verdicts : VerdictsOf (.widest c18World.blake2b ⟨1, 28, 42⟩) state.history :=
    history ▸ c18_verdicts
  have cycle : IsCycle c18World c18Config [0] 69 ⟨c18Proof⟩ := by
    change verifyCycle _ _ _ _ = .ok ()
    decide +kernel
  exact ⟨state, ran, (no_cycle_passed_over c18World c18Config _ c18Accepted state ran verdicts).1 _
    scope 69 (by decide) (by decide) ⟨⟨c18Proof⟩, cycle⟩⟩

end CuckatooMiner.Coordinator
