import Mathlib
import CuckatooMiner.CoordinatorCoverage

/-!
# How mining ends

The loop counts the verdicts of its solver and the failures on the GPU that follow one another;
both counts are those of what can be observed. It returns without an error only when the asked
number of graphs was searched. With an honest solver every error it returns has its cause
outside: the solver failed, its nonces are used up, or the node rejected a verified share. It
never calls a proof invalid, and never fails to decode a header.
-/

namespace CuckatooMiner.Coordinator

open SipHash Verify Solver ProofDifficulty

/-! ## Counts -/

/-- The answer that an observation shows. -/
def Observation.answer : Observation → Option (Except SolveError SolveOutcome)
  | .solved _ result => some result
  | _ => none

/-- All answers of the solver, latest first. -/
def answers (history : List Observation) : List (Except SolveError SolveOutcome) :=
  history.filterMap Observation.answer

/-- Whether an answer is a failure on the GPU. -/
def isGpuError : Except SolveError SolveOutcome → Bool
  | .error (.gpu _) => true
  | _ => false

/-- The number of verdicts. -/
def verdictCount (history : List Observation) : Nat := (answers history).countP Except.isOk

/-- The number of failures on the GPU since the last other answer. -/
def gpuErrorStreak (history : List Observation) : Nat :=
  ((answers history).takeWhile isGpuError).length

@[simp] theorem answers_received (job : Job) (history : List Observation) :
    answers (.received job :: history) = answers history :=
  rfl

@[simp] theorem answers_written (template : List UInt8) (share : SubmitParams)
    (history : List Observation) : answers (.written template share :: history) = answers history :=
  rfl

@[simp] theorem answers_solved (request : SolveRequest) (result : Except SolveError SolveOutcome)
    (history : List Observation) :
    answers (.solved request result :: history) = result :: answers history :=
  rfl

@[simp] theorem verdict_count_ok (request : SolveRequest) (outcome : SolveOutcome)
    (history : List Observation) :
    verdictCount (.solved request (.ok outcome) :: history) = verdictCount history + 1 :=
  List.countP_cons_of_pos (Eq.refl true)

@[simp] theorem verdict_count_error (request : SolveRequest) (error : SolveError)
    (history : List Observation) :
    verdictCount (.solved request (.error error) :: history) = verdictCount history :=
  List.countP_cons_of_neg Bool.false_ne_true

@[simp] theorem streak_ok (request : SolveRequest) (outcome : SolveOutcome)
    (history : List Observation) : gpuErrorStreak (.solved request (.ok outcome) :: history) = 0 := by
  rw [gpuErrorStreak, answers_solved, List.takeWhile_cons_of_neg Bool.false_ne_true, List.length_nil]

@[simp] theorem streak_gpu (request : SolveRequest) (reason : String) (history : List Observation) :
    gpuErrorStreak (.solved request (.error (.gpu reason)) :: history) =
      gpuErrorStreak history + 1 := by
  rw [gpuErrorStreak, answers_solved, List.takeWhile_cons_of_pos (Eq.refl true), List.length_cons]
  exact Eq.refl _

/-- Histories with the same answers have the same number of verdicts. -/
theorem verdict_count_congr {history longer : List Observation}
    (same : answers longer = answers history) : verdictCount longer = verdictCount history := by
  rw [verdictCount, verdictCount, same]

/-- They end with the same number of failures. -/
theorem streak_congr {history longer : List Observation} (same : answers longer = answers history) :
    gpuErrorStreak longer = gpuErrorStreak history := by
  rw [gpuErrorStreak, gpuErrorStreak, same]

section

variable (world : World) (config : MineConfig) (history : List Observation)

/-- The counters of the loop agree with the history, and are below their limits. The number of
    graphs is a natural number, where the source counts in sixty-four bits. -/
structure Counted (locals : Locals) : Prop where
  graphs : locals.graphs = verdictCount history
  errors : locals.consecutiveSolverErrors = gpuErrorStreak history
  few : gpuErrorStreak history < 3
  limit : config.maxGraphs = 0 ∨ locals.graphs ≤ config.maxGraphs

/-- Before the loop has started no solver has answered. -/
def CountedBefore : Option Locals → Prop
  | none => answers history = []
  | some locals => Counted config history locals

/-- The ways in which mining ends. -/
inductive Ending : Except String Unit → Prop
  /-- The cycle length is not that of the network. -/
  | unsupported (length : config.cycleLength ≠ 42) :
      Ending (.error "Grin Stratum submission requires --cycle-length 42")
  /-- The asked number of graphs was searched. -/
  | complete (asked : config.maxGraphs ≠ 0) (searched : verdictCount history = config.maxGraphs) :
      Ending (.ok ())
  /-- The solver has failed on the GPU three times. -/
  | threeErrors (streak : gpuErrorStreak history = 3) :
      Ending (.error "solver failed three times in a row")
  /-- The solver has failed in another way, with its latest answer. -/
  | solver (request : SolveRequest) (error : SolveError)
      (solved : Observation.solved request (.error error) ∈ history)
      (latest : (answers history).head? = some (.error error))
      (other : isGpuError (.error error) = false) :
      Ending (.error ("solving nonce " ++ toString request.nonce.toNat))
  /-- The solver has panicked. -/
  | solverPanicked : Ending (.error "solver task panicked")
  /-- The solver has panicked while it recovered. -/
  | recoveryPanicked : Ending (.error "solver recovery task panicked")
  /-- All nonces of a job are settled. -/
  | exhausted (settled : Exhausted world config history) :
      Ending (.error "nonce space exhausted at u64::MAX")
  /-- The node has rejected a verified share for another reason than that it is late or too easy. -/
  | rejected (job : Job) (prePow : List UInt8) (share : SubmitParams) (code : Int) (message : String)
      (verified : VerifiedShare world config history share job prePow)
      (written : Observation.written prePow share ∈ history)
      (unexpected : isExpectedShareRejection code = false) :
      Ending (.error ("verified share rejected with code " ++ toString code ++ ": " ++ message))

/-- What the variables in scope say about the counts, and how the loop has ended. -/
def PhaseCounted : Phase → Prop
  | .requesting before | .comparing before _ | .publishing before _ | .reconnecting before
  | .connecting before | .loggingIn before => CountedBefore config history before
  | .readingJob _ => answers history = []
  | .readingConnection locals | .loopHead locals | .completed locals _ _ | .examining locals _ _
  | .recovering locals | .submitting locals _ _ => Counted config history locals
  | .solving locals _ => Counted config history locals ∧
      (config.maxGraphs = 0 ∨ locals.graphs < config.maxGraphs)
  | .finished result => Ending world config history result

/-- Every job that was handed out has a header. -/
def Decodes : Prop :=
  ∀ job, Observation.received job ∈ history → (world.decodeHex job.prePow).isSome

end

variable {world : World} {config : MineConfig} {history longer : List Observation} {locals : Locals}

/-- Counts depend on the answers only. -/
theorem Counted.later (counted : Counted config history locals)
    (same : answers longer = answers history) : Counted config longer locals where
  graphs := counted.graphs.trans (verdict_count_congr same).symm
  errors := counted.errors.trans (streak_congr same).symm
  few := (streak_congr same).trans_lt counted.few
  limit := counted.limit

/-- Without new answers an ending keeps its cause. -/
theorem Ending.later {result : Except String Unit} (ending : Ending world config history result)
    (kept : history ⊆ longer) (same : answers longer = answers history) :
    Ending world config longer result := by
  cases ending with
  | unsupported length => exact .unsupported length
  | complete asked searched => exact .complete asked ((verdict_count_congr same).trans searched)
  | threeErrors streak => exact .threeErrors ((streak_congr same).trans streak)
  | solver request error solved latest other =>
    exact .solver request error (kept solved) (by rw [same, latest]) other
  | solverPanicked => exact .solverPanicked
  | recoveryPanicked => exact .recoveryPanicked
  | exhausted settled =>
    have later : PhaseCovered world config history
        (.finished (.error "nonce space exhausted at u64::MAX")) := fun _ => settled
    exact .exhausted (phase_covered_later _ kept later (Eq.refl _))
  | rejected job prePow share code message verified written unexpected =>
    exact .rejected job prePow share code message (verified.later kept) (kept written) unexpected

/-- So does what a phase says. -/
theorem phase_counted_later (phase : Phase) (kept : history ⊆ longer)
    (same : answers longer = answers history) (counted : PhaseCounted world config history phase) :
    PhaseCounted world config longer phase := by
  have before_later (before : Option Locals) (holds : CountedBefore config history before) :
      CountedBefore config longer before := by
    cases before with
    | none => exact same.trans holds
    | some locals => exact Counted.later holds same
  cases phase with
  | readingJob job => exact same.trans counted
  | solving locals solve => exact ⟨Counted.later counted.1 same, counted.2⟩
  | finished result => exact Ending.later counted kept same
  | readingConnection locals => exact Counted.later counted same
  | loopHead locals => exact Counted.later counted same
  | completed locals keys outcome => exact Counted.later counted same
  | examining locals keys outcome => exact Counted.later counted same
  | recovering locals => exact Counted.later counted same
  | submitting locals share written => exact Counted.later counted same
  | _ => exact before_later _ counted

/-! ## Steps -/

/-- Going on keeps the counts, or ends with the nonces exhausted. -/
theorem advance_counted (counted : Counted config history locals)
    (covered : PhaseCovered world config history (advance locals)) :
    PhaseCounted world config history (advance locals) := by
  unfold advance at covered ⊢
  split
  · rename_i last
    simp only [last] at covered
    exact .exhausted (covered (Eq.refl _))
  · exact { counted with }

/-- A job that was handed out can be taken over. -/
theorem take_over_counted (job : Job) (decodes : (world.decodeHex job.prePow).isSome)
    (counted : Counted config history locals) :
    PhaseCounted world config history (takeOver world config locals job) := by
  unfold takeOver
  split
  · rename_i undecoded
    rw [undecoded] at decodes
    cases decodes
  · exact { counted with }

/-- So can one that was requested. -/
theorem acquired_counted (before : Option Locals) (job : Job)
    (decodes : (world.decodeHex job.prePow).isSome) (counted : CountedBefore config history before) :
    PhaseCounted world config history (acquired world config before job) := by
  cases before with
  | none => exact counted
  | some locals => exact take_over_counted job decodes counted

/-- At start-up the counters are zero. -/
theorem start_up_counted (job : Job) (latest : Option Job)
    (decodes : (world.decodeHex ((staleAgainst job latest).getD job).prePow).isSome)
    (none_answered : answers history = []) :
    PhaseCounted world config history (startUp world config job latest) := by
  unfold startUp
  dsimp only
  split
  · rename_i undecoded
    rw [undecoded] at decodes
    cases decodes
  · constructor <;> simp [verdictCount, gpuErrorStreak, none_answered]

/-- A solve is started only if more graphs are to be searched. -/
theorem enter_loop_counted (counted : Counted config history locals) :
    PhaseCounted world config history (enterLoop world config locals) := by
  unfold enterLoop
  by_cases more : config.maxGraphs = 0 ∨ locals.graphs < config.maxGraphs
  · rw [if_pos more]
    exact ⟨counted, more⟩
  · rw [if_neg more]
    have limit := counted.limit
    have graphs := counted.graphs
    exact .complete (by omega) (by omega)

/-- An answer is counted as a verdict or a failure, or ends the loop. -/
theorem after_solve_counted (solve : Solve) (result : Except SolveError SolveOutcome)
    (request : solve.request = requestFor config locals) (counted : Counted config history locals)
    (more : config.maxGraphs = 0 ∨ locals.graphs < config.maxGraphs) :
    PhaseCounted world config (.solved solve.request result :: history)
      (afterSolve locals solve result) := by
  have graphs := counted.graphs
  have errors := counted.errors
  have few := counted.few
  unfold afterSolve
  split
  · exact
      { graphs := by rw [verdict_count_ok, ← graphs]
        errors := (streak_ok _ _ _).symm
        few := by simp
        limit := by dsimp only; omega }
  · rename_i reason
    have longer_streak := streak_gpu solve.request reason history
    dsimp only
    by_cases third : locals.consecutiveSolverErrors + 1 ≥ 3
    · rw [if_pos third]
      exact .threeErrors (by omega)
    · rw [if_neg third]
      exact
        { graphs := graphs.trans (verdict_count_error _ _ _).symm
          errors := by rw [longer_streak, ← errors]
          few := by omega
          limit := counted.limit }
  · rename_i error other
    have named : locals.nonce = solve.request.nonce := by rw [request, requestFor]
    rw [named]
    refine .solver solve.request error List.mem_cons_self (by simp) ?_
    cases error with
    | gpu reason => exact absurd rfl (other reason)
    | _ => exact Eq.refl false

/-- The proof of an honest solver is never refused. -/
theorem use_outcome_counted {solver : HonestSolver world.blake2b} (verdicts : VerdictsOf solver history)
    (keys : SipKeys) (outcome : SolveOutcome) (counted : Counted config history locals)
    (answered : Answered world config history locals keys outcome)
    (covered : PhaseCovered world config history (useOutcome world config locals keys outcome)) :
    PhaseCounted world config history (useOutcome world config locals keys outcome) := by
  cases outcome with
  | proof proof =>
    obtain ⟨flag, answers⟩ := verdicts _ _ answered.solved
    have accepted : verifyCycle keys config.edgeBits config.cycleLength proof = .ok () := by
      rw [answered.keys]
      exact solver.honest _ _ _ answers
    simp only [useOutcome, accepted] at covered ⊢
    split
    · exact counted
    · rename_i easy
      rw [if_neg easy] at covered
      exact advance_counted counted covered
  | noCycle => exact advance_counted counted covered
  | cancelled => exact counted
  | inconclusive reason => exact advance_counted counted covered

/-- Only an unexpected rejection ends the loop. -/
theorem after_submit_counted (answer : SubmitOutcome) {share : SubmitParams}
    (counted : Counted config history locals)
    (verified : VerifiedShare world config history share locals.currentJob locals.prePow)
    (written : Observation.written locals.prePow share ∈ history)
    (covered : PhaseCovered world config history (afterSubmit locals answer)) :
    PhaseCounted world config history (afterSubmit locals answer) := by
  cases answer with
  | accepted => exact advance_counted counted covered
  | rejected code message =>
    simp only [afterSubmit] at covered ⊢
    split
    · rename_i expected
      rw [if_pos expected] at covered
      exact advance_counted counted covered
    · rename_i unexpected
      exact .rejected _ _ share code message verified written (Bool.eq_false_iff.mpr unexpected)

/-- What every step keeps: the variables belong together, the nonces are covered, the jobs have
    headers, and with an honest solver the counts are right. -/
structure Accounted (solver : HonestSolver world.blake2b) (config : MineConfig) (state : State world) :
    Prop where
  sound : Sound world config state
  covered : PhaseCovered world config state.history state.phase
  decodes : Decodes world state.history
  counted : VerdictsOf solver state.history → PhaseCounted world config state.history state.phase

/-- A new observation that shows no answer keeps the counts. -/
theorem counted_unanswered {solver : HonestSolver world.blake2b} {observation : Observation}
    (phase : Phase) (unanswered : answers (observation :: history) = answers history)
    (counted : VerdictsOf solver history → PhaseCounted world config history phase)
    (verdicts : VerdictsOf solver (observation :: history)) :
    PhaseCounted world config (observation :: history) phase :=
  phase_counted_later phase (List.subset_cons_self _ _) unanswered (counted fun request outcome member =>
    verdicts request outcome (List.mem_cons_of_mem _ member))

/-- Every step keeps the counts, if the solver is honest. -/
theorem step_counted {solver : HonestSolver world.blake2b} (state : State world) (event : Event)
    (next : State world) (accounted : Accounted solver config state) (stepped : step world config state event = some next)
    (verdicts : VerdictsOf solver next.history) :
    PhaseCounted world config next.history next.phase := by
  obtain ⟨sound, covered, decodes, counted⟩ := accounted
  have next_covered := step_covered state event next sound covered stepped
  have holds := sound.phase
  have channel := sound.channel
  cases step_cases stepped with
  | jobPushed job valid => exact counted_unanswered _ (answers_received job _) counted verdicts
  | connectionLost => exact counted verdicts
  | jobRequestFailed before phase =>
    rw [phase] at counted
    exact counted verdicts
  | templateReceived before template phase valid =>
    rw [phase] at counted
    exact counted_unanswered (.comparing before template) (answers_received template _) counted
      verdicts
  | pushPreferred before template pushed phase newer =>
    rw [phase] at counted
    have received := channel pushed (Option.eq_some_of_filter_eq_some newer)
    exact acquired_counted before pushed (decodes pushed received) (counted verdicts)
  | templatePreferred before template phase older =>
    rw [phase] at counted
    exact counted verdicts
  | templatePublished before template phase =>
    rw [phase] at counted holds
    exact acquired_counted before template (decodes template holds) (counted verdicts)
  | disconnected before phase =>
    rw [phase] at counted
    exact counted verdicts
  | connectFailed before phase =>
    rw [phase] at counted
    exact counted verdicts
  | reconnected before phase =>
    rw [phase] at counted
    exact counted verdicts
  | loginFailed before phase =>
    rw [phase] at counted
    exact counted verdicts
  | loggedIn before phase =>
    rw [phase] at counted
    exact counted verdicts
  | jobRead job phase =>
    rw [phase] at counted holds
    refine start_up_counted job _ (decodes _ ?_) (counted verdicts)
    cases stale : staleAgainst job (world.jobs.borrow state.jobs) with
    | none => exact holds
    | some pushed => exact channel pushed (Option.eq_some_of_filter_eq_some stale)
  | connectionRead locals phase =>
    rw [phase] at counted
    exact counted verdicts
  | loopEntered locals phase =>
    rw [phase] at counted
    exact enter_loop_counted (counted verdicts)
  | jobChanged locals solve phase ready =>
    rw [phase] at counted
    exact counted verdicts
  | jobChannelClosed locals solve phase listening =>
    rw [phase] at counted
    exact counted verdicts
  | connectionChanged locals solve phase ready =>
    rw [phase] at counted
    exact counted verdicts
  | connectionChannelClosed locals solve phase listening =>
    rw [phase] at counted
    exact counted verdicts
  | solved locals solve result phase =>
    rw [phase] at counted holds
    have before := counted fun request outcome member =>
      verdicts request outcome (List.mem_cons_of_mem _ member)
    exact after_solve_counted solve result holds.2.1 before.1 before.2
  | solverPanicked locals solve phase => exact .solverPanicked
  | recovered locals phase =>
    rw [phase] at counted
    exact advance_counted (counted verdicts) next_covered
  | recoveryPanicked locals phase => exact .recoveryPanicked
  | connectionStands locals keys outcome phase connected =>
    rw [phase] at counted
    exact counted verdicts
  | connectionGone locals keys outcome phase lost =>
    rw [phase] at counted
    exact counted verdicts
  | jobExamined locals keys outcome phase =>
    rw [phase] at counted holds
    change PhaseCounted world config state.history (examine world config locals keys outcome _)
    change PhaseCovered world config state.history (examine world config locals keys outcome _)
      at next_covered
    unfold examine at next_covered ⊢
    split
    · rename_i job stale
      have received := channel job (Option.eq_some_of_filter_eq_some stale)
      exact take_over_counted job (decodes job received) (counted verdicts)
    · rename_i fresh
      simp only [fresh] at next_covered
      exact use_outcome_counted verdicts keys outcome (counted verdicts) holds.2 next_covered
  | submitWritten locals share phase =>
    rw [phase] at counted
    exact counted_unanswered (.submitting locals share true) (answers_written _ _ _) counted
      verdicts
  | submitAnswered locals share answer phase =>
    rw [phase] at counted holds covered
    exact after_submit_counted answer (counted verdicts) holds.2 (covered.2.2 (Eq.refl _)) next_covered
  | submitFailed locals share written phase =>
    rw [phase] at counted
    exact counted verdicts

/-- Only jobs with a header are handed out. -/
theorem step_decodes (state : State world) (event : Event) (next : State world)
    (decodes : Decodes world state.history) (stepped : step world config state event = some next) :
    Decodes world next.history := by
  have later (observation : Observation)
      (new : ∀ job, observation = .received job → (world.decodeHex job.prePow).isSome) :
      Decodes world (observation :: state.history) := by
    intro job member
    rcases List.mem_cons.mp member with same | before
    · exact new job same.symm
    · exact decodes job before
  cases step_cases stepped with
  | jobPushed job valid =>
    refine later _ fun other same => ?_
    cases same
    exact valid
  | templateReceived before template phase valid =>
    refine later _ fun other same => ?_
    cases same
    exact valid
  | solved locals solve result phase => exact later _ fun other same => by cases same
  | submitWritten locals share phase => exact later _ fun other same => by cases same
  | _ => exact decodes

/-- So every step keeps all of it. -/
theorem step_accounted {solver : HonestSolver world.blake2b} (length : config.cycleLength = 42)
    (state : State world) (event : Event) (next : State world)
    (accounted : Accounted solver config state)
    (stepped : step world config state event = some next) : Accounted solver config next where
  sound := step_sound length state event next accounted.sound stepped
  covered := step_covered state event next accounted.sound accounted.covered stepped
  decodes := step_decodes state event next accounted.decodes stepped
  counted := step_counted state event next accounted stepped

/-- At the start nothing is to be accounted for. -/
theorem start_accounted (solver : HonestSolver world.blake2b) (length : config.cycleLength = 42) :
    Accounted solver config (start world config) := by
  unfold start
  rw [if_neg (not_not.mpr length)]
  refine ⟨⟨trivial, fun job latest => ?_⟩, fun locals member => ?_, fun job member => ?_,
    fun _ => Eq.refl _⟩
  · rw [world.jobs.borrow_channel] at latest
    cases latest
  · cases member
  · cases member

/-- Where there are variables, the counters are right. -/
theorem counted_of_scope {phase : Phase} (counted : PhaseCounted world config history phase)
    (scope : phase.scope = some locals) : Counted config history locals := by
  have counted_before (before : Option Locals) (holds : CountedBefore config history before)
      (same : before = some locals) : Counted config history locals := by
    subst same
    exact holds
  cases phase with
  | readingJob job => cases scope
  | finished result => cases scope
  | readingConnection others =>
    cases scope
    exact counted
  | loopHead others =>
    cases scope
    exact counted
  | completed others keys outcome =>
    cases scope
    exact counted
  | examining others keys outcome =>
    cases scope
    exact counted
  | recovering others =>
    cases scope
    exact counted
  | submitting others share written =>
    cases scope
    exact counted
  | solving others solve =>
    cases scope
    exact counted.1
  | _ => exact counted_before _ counted scope

/-- In every run with an honest solver, however the node, the connection, the reader and the solver
    interleave: the two counters are the number of verdicts and the number of failures on the GPU
    since the last other answer; no more graphs are searched than were asked for; and the loop
    returns only as listed: without an error only when a number of graphs was asked for and
    searched, after three failures in a row, after another failure of the solver, after a panic,
    when all nonces of a job are settled, or when the node rejects a verified share unexpectedly.
    It never returns since a proof were invalid or a header could not be decoded. -/
theorem mining_ends (world : World) (config : MineConfig) (solver : HonestSolver world.blake2b)
    (events : List Event) (state : State world) (ran : mine world config events = some state)
    (verdicts : VerdictsOf solver state.history) :
    (∀ locals, state.phase.scope = some locals → Counted config state.history locals) ∧
      ∀ result, state.phase = .finished result → Ending world config state.history result := by
  by_cases length : config.cycleLength = 42
  · have accounted := Runs.run_invariant (Accounted solver config) (step_accounted length)
      (start_accounted solver length) ran
    have counted := accounted.counted verdicts
    constructor
    · intro locals scope
      exact counted_of_scope counted scope
    · intro result finished
      rw [finished] at counted
      exact counted
  · have refused := Runs.run_invariant
      (fun state => state.phase =
        .finished (.error "Grin Stratum submission requires --cycle-length 42"))
      (finished_stays _) (by unfold start; rw [if_pos length]) ran
    constructor
    · intro locals scope
      rw [refused] at scope
      cases scope
    · intro result finished
      rw [refused] at finished
      cases finished
      exact .unsupported length

/-- What the loop has returned. -/
def Phase.result : Phase → Option (Except String Unit)
  | .finished result => some result
  | _ => none

/-- One graph is asked for; the run searches it, sends the share and returns. -/
theorem c18_mining_ends :
    ∃ state, mine c18World { c18Config with maxGraphs := 1 } (c18Accepted ++ [.loopEntered]) =
        some state ∧
      state.phase = .finished (.ok ()) ∧
      Ending c18World { c18Config with maxGraphs := 1 } state.history (.ok ()) := by
  have reached : (mine c18World { c18Config with maxGraphs := 1 } (c18Accepted ++ [.loopEntered])).map
      (fun state => (state.phase.result, state.history)) = some (some (.ok ()), c18History) := by
    decide +kernel
  obtain ⟨state, ran, shown⟩ := Option.map_eq_some_iff.mp reached
  rw [Prod.mk.injEq] at shown
  obtain ⟨returned, history⟩ := shown
  have verdicts : VerdictsOf (.widest c18World.blake2b ⟨1, 28, 42⟩) state.history :=
    history ▸ c18_verdicts
  have finished : state.phase = .finished (.ok ()) := by
    cases phase : state.phase with
    | finished result =>
      rw [phase, Phase.result, Option.some.injEq] at returned
      rw [returned]
    | _ =>
      rw [phase] at returned
      cases returned
  exact ⟨state, ran, finished, (mining_ends c18World _ _ _ state ran verdicts).2 _ finished⟩

end CuckatooMiner.Coordinator
