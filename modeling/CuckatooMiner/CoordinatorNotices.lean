import Mathlib
import CuckatooMiner.CoordinatorShares

/-!
# Noticed changes

The select of a running solve is told of every change of the job and of the connection
once, and cancels the solve. The next solve has a new cancel flag, so what was told
before has to be looked at again when a solve ends. The loop does so after every
outcome, but not after a GPU error that it recovers from, and at start-up it marks the
connection as seen without looking. Apart from these two steps no change is lost.
-/

namespace CuckatooMiner.Coordinator

open Verify Solver

/-- The variables around a running solve. -/
def Phase.running : Phase → Option (Locals × Solve)
  | .solving locals solve => some (locals, solve)
  | _ => none

/-- The solver has failed on the GPU. -/
def Event.isGpuError : Event → Bool
  | .solved (.error (.gpu _)) => true
  | _ => false

section

variable (world : World)

/-- A running solve for a job that is stale, or without a connection, has been cancelled, or the
    select is about to be told. It says nothing of a state in which no solve runs. -/
def ChangesNoticed (state : State world) : Prop :=
  ∀ running ∈ state.phase.running,
    (∀ latest ∈ world.jobs.borrow state.jobs, latest.height ≠ running.1.currentJob.height →
      running.2.cancel = true ∨
        running.2.jobChannelOpen = true ∧ world.jobs.unseen state.jobs = true) ∧
    (world.connection.borrow state.connection = false →
      running.2.cancel = true ∨
        running.2.connectionChannelOpen = true ∧ world.connection.unseen state.connection = true)

instance (state : State world) : Decidable (ChangesNoticed world state) :=
  inferInstanceAs (Decidable (∀ running ∈ state.phase.running,
    (∀ latest ∈ world.jobs.borrow state.jobs, _ ≠ _ → _ = true ∨ _ = true ∧ _ = true) ∧
      (_ = false → _ = true ∨ _ = true ∧ _ = true)))

/-- The job in the channel is not stale, or has not been seen. A job of the same height counts
    as the same work, as it does for the loop. -/
def JobFresh (jobs : world.jobs.State) (current : Job) : Prop :=
  ∀ latest ∈ world.jobs.borrow jobs, latest.height ≠ current.height → world.jobs.unseen jobs = true

/-- The connection stands, or its loss has not been seen. -/
def ConnectionFresh (connection : world.connection.State) : Prop :=
  world.connection.borrow connection = false → world.connection.unseen connection = true

instance (jobs : world.jobs.State) (current : Job) : Decidable (JobFresh world jobs current) :=
  inferInstanceAs (Decidable (∀ latest ∈ world.jobs.borrow jobs, _ ≠ _ → _ = true))

instance (connection : world.connection.State) : Decidable (ConnectionFresh world connection) :=
  inferInstanceAs (Decidable (_ = false → _ = true))

/-- Start-up finds the connection standing, and a GPU error that the loop recovers from ends no
    solve for a job already seen to be stale, or a connection already seen to be lost. It is a
    condition on the state before a step and on the kind of the step. -/
def NothingOverlooked (state : State world) (event : Event) : Prop :=
  (event = .connectionRead → world.connection.borrow state.connection = true) ∧
  (event.isGpuError = true → ∀ running ∈ state.phase.running,
    running.1.consecutiveSolverErrors + 1 < 3 →
      JobFresh world state.jobs running.1.currentJob ∧ ConnectionFresh world state.connection)

instance (state : State world) (event : Event) : Decidable (NothingOverlooked world state event) :=
  inferInstanceAs (Decidable ((_ = _ → _ = true) ∧ (_ = true →
    ∀ running ∈ state.phase.running, _ < 3 → JobFresh world _ _ ∧ ConnectionFresh world _)))

/-- What is still to be noticed at each point of the loop. -/
def PhaseNotices (jobs : world.jobs.State) (connection : world.connection.State) : Phase → Prop
  | .requesting _ | .comparing _ _ | .publishing _ _ | .loggingIn _ | .readingJob _
  | .examining _ _ _ => ConnectionFresh world connection
  | .readingConnection locals => JobFresh world jobs locals.currentJob
  | .loopHead locals | .recovering locals | .submitting locals _ _ =>
      JobFresh world jobs locals.currentJob ∧ ConnectionFresh world connection
  | .solving locals solve =>
      (solve.cancel = true ∨ solve.jobChannelOpen = true ∧ JobFresh world jobs locals.currentJob) ∧
      (solve.cancel = true ∨ solve.connectionChannelOpen = true ∧ ConnectionFresh world connection)
  | _ => True

end

variable {world : World} {config : MineConfig} {locals : Locals}
  {jobs : world.jobs.State} {connection : world.connection.State}

/-- A job just sent has not been seen. -/
theorem job_fresh_send (jobs : world.jobs.State) (latest : Option Job) (current : Job) :
    JobFresh world (world.jobs.sendReplace jobs latest) current :=
  fun _ _ _ => world.jobs.unseen_send _ _

/-- A connection change just sent has not been seen. -/
theorem connection_fresh_send (connection : world.connection.State) (flag : Bool) :
    ConnectionFresh world (world.connection.sendReplace connection flag) :=
  fun _ => world.connection.unseen_send _ _

/-- A job of the latest height is not stale. -/
theorem job_fresh_same (current : Job)
    (same : ∀ latest ∈ world.jobs.borrow jobs, latest.height = current.height) :
    JobFresh world jobs current :=
  fun latest borrowed different => absurd (same latest borrowed) different

/-- A standing connection is not lost. -/
theorem connection_fresh_standing (stands : world.connection.borrow connection = true) :
    ConnectionFresh world connection := by
  intro lost
  rw [stands] at lost
  cases lost

/-- The latest job that makes none stale has its height. -/
theorem height_of_not_stale (current : Job) (latest : Option Job)
    (fresh : staleAgainst current latest = none) (job : Job) (member : job ∈ latest) :
    job.height = current.height := by
  cases member
  simpa [staleAgainst, jobIsStale, Option.filter] using fresh

/-- Advancing keeps the job. -/
theorem advance_notices (job : JobFresh world jobs locals.currentJob)
    (flag : ConnectionFresh world connection) :
    PhaseNotices world jobs connection (advance locals) := by
  unfold advance
  split
  · trivial
  · exact ⟨job, flag⟩

/-- Taking a job over starts with that job. -/
theorem take_over_notices (job : Job) (fresh : JobFresh world jobs job)
    (flag : ConnectionFresh world connection) :
    PhaseNotices world jobs connection (takeOver world config locals job) := by
  unfold takeOver
  split
  · trivial
  · exact ⟨fresh, flag⟩

/-- So does acquiring it. -/
theorem acquired_notices (before : Option Locals) (job : Job) (fresh : JobFresh world jobs job)
    (flag : ConnectionFresh world connection) :
    PhaseNotices world jobs connection (acquired world config before job) := by
  cases before with
  | none => exact flag
  | some locals => exact take_over_notices job fresh flag

/-- Start-up takes the latest job over if the requested one is stale. -/
theorem start_up_notices (job : Job) :
    PhaseNotices world (world.jobs.borrowAndUpdate jobs) connection
      (startUp world config job (world.jobs.borrow jobs)) := by
  unfold startUp
  simp only
  split
  · trivial
  · apply job_fresh_same
    intro latest borrowed
    rw [world.jobs.borrow_update] at borrowed
    cases stale : staleAgainst job (world.jobs.borrow jobs) with
    | none => exact height_of_not_stale job _ stale latest borrowed
    | some pushed =>
      have same : world.jobs.borrow jobs = some pushed := Option.eq_some_of_filter_eq_some stale
      rw [same] at borrowed
      cases borrowed
      rfl

/-- The outcome of a solve for the latest height is used for that height. -/
theorem use_outcome_notices (keys : SipHash.SipKeys) (outcome : SolveOutcome)
    (job : JobFresh world jobs locals.currentJob) (flag : ConnectionFresh world connection) :
    PhaseNotices world jobs connection (useOutcome world config locals keys outcome) := by
  unfold useOutcome
  split
  · split
    · trivial
    · simp only
      split
      · exact ⟨job, flag⟩
      · exact advance_notices job flag
  · exact advance_notices job flag
  · exact ⟨job, flag⟩
  · exact advance_notices job flag

/-- Looking at the latest job leaves nothing to be noticed. -/
theorem examine_notices (keys : SipHash.SipKeys) (outcome : SolveOutcome)
    (flag : ConnectionFresh world connection) :
    PhaseNotices world (world.jobs.borrowAndUpdate jobs) connection
      (examine world config locals keys outcome (world.jobs.borrow jobs)) := by
  unfold examine
  split
  · rename_i job stale
    have same : world.jobs.borrow jobs = some job := Option.eq_some_of_filter_eq_some stale
    refine take_over_notices job (job_fresh_same job fun latest borrowed => ?_) flag
    rw [world.jobs.borrow_update, same] at borrowed
    cases borrowed
    rfl
  · rename_i fresh
    refine use_outcome_notices keys outcome (job_fresh_same _ fun latest borrowed => ?_) flag
    rw [world.jobs.borrow_update] at borrowed
    exact height_of_not_stale _ _ fresh latest borrowed

/-- A pushed job is still to be noticed everywhere. -/
theorem push_notices (latest : Option Job) (phase : Phase)
    (notices : PhaseNotices world jobs connection phase) :
    PhaseNotices world (world.jobs.sendReplace jobs latest) connection phase := by
  cases phase with
  | readingConnection locals => exact job_fresh_send _ _ _
  | loopHead locals => exact ⟨job_fresh_send _ _ _, notices.2⟩
  | recovering locals => exact ⟨job_fresh_send _ _ _, notices.2⟩
  | submitting locals share written => exact ⟨job_fresh_send _ _ _, notices.2⟩
  | solving locals solve =>
    refine ⟨notices.1.imp_right fun listening => ⟨listening.1, job_fresh_send _ _ _⟩, notices.2⟩
  | _ => exact notices

/-- A lost connection is still to be noticed everywhere. -/
theorem loss_notices (phase : Phase) (notices : PhaseNotices world jobs connection phase) :
    PhaseNotices world jobs (world.connection.sendReplace connection false) phase := by
  cases phase with
  | readingConnection locals => exact notices
  | loopHead locals => exact ⟨notices.1, connection_fresh_send _ _⟩
  | recovering locals => exact ⟨notices.1, connection_fresh_send _ _⟩
  | submitting locals share written => exact ⟨notices.1, connection_fresh_send _ _⟩
  | solving locals solve =>
    exact ⟨notices.1, notices.2.imp_right fun listening => ⟨listening.1, connection_fresh_send _ _⟩⟩
  | completed locals keys outcome => trivial
  | reconnecting before => trivial
  | connecting before => trivial
  | finished result => trivial
  | _ => exact connection_fresh_send _ _

/-- A step that overlooks nothing leaves what is still to be noticed. -/
theorem step_notices (state : State world) (event : Event) (next : State world)
    (notices : PhaseNotices world state.jobs state.connection state.phase)
    (overlooked : NothingOverlooked world state event)
    (stepped : step world config state event = some next) :
    PhaseNotices world next.jobs next.connection next.phase := by
  cases step_cases stepped with
  | jobPushed job valid => exact push_notices _ _ notices
  | connectionLost => exact loss_notices _ notices
  | jobRequestFailed before phase => trivial
  | templateReceived before template phase valid =>
    rw [phase] at notices
    exact notices
  | pushPreferred before template pushed phase newer =>
    rw [phase] at notices
    have same : world.jobs.borrow state.jobs = some pushed := Option.eq_some_of_filter_eq_some newer
    refine acquired_notices before pushed (job_fresh_same pushed fun latest borrowed => ?_) notices
    rw [same] at borrowed
    cases borrowed
    rfl
  | templatePreferred before template phase older =>
    rw [phase] at notices
    exact notices
  | templatePublished before template phase =>
    rw [phase] at notices
    exact acquired_notices before template (job_fresh_send _ _ _) notices
  | disconnected before phase => trivial
  | connectFailed before phase => trivial
  | reconnected before phase => exact connection_fresh_send _ _
  | loginFailed before phase => trivial
  | loggedIn before phase =>
    rw [phase] at notices
    exact notices
  | jobRead job phase => exact start_up_notices job
  | connectionRead locals phase =>
    rw [phase] at notices
    refine ⟨notices, connection_fresh_standing ?_⟩
    rw [world.connection.borrow_update]
    exact overlooked.1 rfl
  | loopEntered locals phase =>
    rw [phase] at notices
    unfold enterLoop
    split
    · exact ⟨Or.inr ⟨rfl, notices.1⟩, Or.inr ⟨rfl, notices.2⟩⟩
    · trivial
  | jobChanged locals solve phase ready =>
    rw [phase] at notices
    refine ⟨?_, notices.2.imp_left fun cancelled => by simp only [cancelled, Bool.true_or]⟩
    cases stale : staleAgainst locals.currentJob (world.jobs.borrow state.jobs) with
    | some job => exact Or.inl (by simp only [Option.isSome_some, Bool.or_true])
    | none =>
      refine Or.inr ⟨ready.1, job_fresh_same _ fun latest borrowed => ?_⟩
      rw [world.jobs.borrow_update] at borrowed
      exact height_of_not_stale _ _ stale latest borrowed
  | jobChannelClosed locals solve phase listening => exact ⟨Or.inl rfl, Or.inl rfl⟩
  | connectionChanged locals solve phase ready =>
    rw [phase] at notices
    refine ⟨notices.1.imp_left fun cancelled => by simp only [cancelled, Bool.true_or], ?_⟩
    cases flag : world.connection.borrow state.connection with
    | false => exact Or.inl (by simp only [Bool.not_false, Bool.or_true])
    | true =>
      refine Or.inr ⟨ready.1, connection_fresh_standing ?_⟩
      rw [world.connection.borrow_update]
      exact flag
  | connectionChannelClosed locals solve phase listening => exact ⟨Or.inl rfl, Or.inl rfl⟩
  | solved locals solve result phase =>
    unfold afterSolve
    split
    · trivial
    · simp only
      split
      · trivial
      · rename_i few
        exact overlooked.2 rfl (locals, solve) (by rw [phase]; rfl) (Nat.lt_of_not_ge few)
    · trivial
  | solverPanicked locals solve phase => trivial
  | recovered locals phase =>
    rw [phase] at notices
    exact advance_notices notices.1 notices.2
  | recoveryPanicked locals phase => trivial
  | connectionStands locals keys outcome phase connected => exact connection_fresh_standing connected
  | connectionGone locals keys outcome phase lost => trivial
  | jobExamined locals keys outcome phase =>
    rw [phase] at notices
    exact examine_notices keys outcome notices
  | submitWritten locals share phase =>
    rw [phase] at notices
    exact notices
  | submitAnswered locals share answer phase =>
    rw [phase] at notices
    unfold afterSubmit
    split
    · exact advance_notices notices.1 notices.2
    · split
      · exact advance_notices notices.1 notices.2
      · trivial
  | submitFailed locals share written phase => trivial

/-- In a run that overlooks nothing at start-up and after GPU errors, no change of the height
    and no loss of the connection is lost while a solve runs. How soon a solver heeds its flag
    is left out, and so is the time between two steps. -/
theorem changes_are_noticed (world : World) (config : MineConfig) (events : List Event)
    (state : State world) (ran : mine world config events = some state)
    (overlooked : Runs.Meets (step world config) (NothingOverlooked world) (start world config)
      events) :
    ChangesNoticed world state := by
  have initial : PhaseNotices world (start world config).jobs (start world config).connection
      (start world config).phase := by
    unfold start
    simp only
    split
    · trivial
    · exact connection_fresh_send _ _
  have notices := Runs.run_meets_invariant
    (fun state : State world => PhaseNotices world state.jobs state.connection state.phase)
    step_notices initial overlooked ran
  intro running member
  cases phase : state.phase with
  | solving locals solve =>
    rw [phase] at member notices
    cases member
    exact ⟨fun latest borrowed different =>
        notices.1.imp_right fun listening =>
          ⟨listening.1, listening.2 latest borrowed different⟩,
      fun lost => notices.2.imp_right fun listening => ⟨listening.1, listening.2 lost⟩⟩
  | _ =>
    rw [phase] at member
    cases member

/-- A solve that starts without a fresh job and a fresh connection notices nothing. -/
theorem stale_start (config : MineConfig) (state : State world) (locals : Locals)
    (phase : state.phase = .loopHead locals)
    (stale : ¬ (JobFresh world state.jobs locals.currentJob ∧
      ConnectionFresh world state.connection)) :
    ∃ final, step world config state .loopEntered = some final ∧
      (¬ ChangesNoticed world final ∨ ∃ result, final.phase = .finished result) := by
  refine ⟨{ state with phase := enterLoop world config locals }, by simp only [step, phase], ?_⟩
  by_cases more : config.maxGraphs = 0 ∨ locals.graphs < config.maxGraphs
  · refine Or.inl fun noticed => stale ?_
    obtain ⟨job, flag⟩ := noticed (locals, ⟨requestFor config locals,
      (requestFor config locals).sipKeys world.blake2b, false, true, true⟩)
      (by simp only [enterLoop, if_pos more, Phase.running, Option.mem_some])
    exact ⟨fun latest borrowed different =>
        ((job latest borrowed different).resolve_left Bool.false_ne_true).2,
      fun lost => ((flag lost).resolve_left Bool.false_ne_true).2⟩
  · exact Or.inr ⟨.ok (), by simp only [enterLoop, if_neg more]⟩

/-- Neither does one that starts so after a recovery. -/
theorem stale_recovery (config : MineConfig) (state : State world) (locals : Locals)
    (phase : state.phase = .recovering locals)
    (stale : ¬ (JobFresh world state.jobs locals.currentJob ∧
      ConnectionFresh world state.connection)) :
    ∃ events final, Runs.run (step world config) state events = some final ∧
      (¬ ChangesNoticed world final ∨ ∃ result, final.phase = .finished result) := by
  have recovered : step world config state .recovered =
      some { state with phase := advance locals } := by simp only [step, phase]
  cases following : nextNonce locals.nonce with
  | none =>
    refine ⟨[.recovered], _, Runs.run_cons.mpr ⟨_, recovered, rfl⟩,
      Or.inr ⟨.error "nonce space exhausted at u64::MAX", ?_⟩⟩
    simp only [advance, following]
  | some nonce =>
    have next : advance locals = .loopHead { locals with nonce := nonce } := by
      simp only [advance, following]
    obtain ⟨final, entered, ended⟩ :=
      stale_start config { state with phase := advance locals } _ next stale
    exact ⟨[.recovered, .loopEntered], final,
      Runs.run_cons.mpr ⟨_, recovered, Runs.run_cons.mpr ⟨_, entered, rfl⟩⟩, ended⟩

/-- What a step overlooks is not noticed by the next solve, unless something else
    happens before that or the loop ends. -/
theorem overlooked_change (state next : State world) (event : Event)
    (missed : ¬ NothingOverlooked world state event)
    (stepped : step world config state event = some next) :
    ∃ events final, Runs.run (step world config) next events = some final ∧
      (¬ ChangesNoticed world final ∨ ∃ result, final.phase = .finished result) := by
  rw [NothingOverlooked, not_and_or] at missed
  rcases missed with at_start | after_error
  · obtain ⟨rfl, lost⟩ := Classical.not_imp.mp at_start
    cases step_cases stepped with
    | connectionRead locals phase =>
      have stale : ¬ ConnectionFresh world (world.connection.borrowAndUpdate state.connection) := by
        intro fresh
        have unseen := fresh (by rw [world.connection.borrow_update, Bool.eq_false_iff]; exact lost)
        rw [world.connection.unseen_update] at unseen
        cases unseen
      obtain ⟨final, entered, ended⟩ := stale_start config { state with
        phase := .loopHead locals
        connection := world.connection.borrowAndUpdate state.connection } locals rfl
          fun fresh => stale fresh.2
      exact ⟨[.loopEntered], final, Runs.run_cons.mpr ⟨_, entered, rfl⟩, ended⟩
  · obtain ⟨failed, overlooks⟩ := Classical.not_imp.mp after_error
    cases step_cases stepped with
    | solved locals solve result phase =>
      rw [phase] at overlooks
      have few : locals.consecutiveSolverErrors + 1 < 3 := by
        by_contra many
        refine overlooks fun running member bound => ?_
        cases member
        exact absurd bound many
      have stale : ¬ (JobFresh world state.jobs locals.currentJob ∧
          ConnectionFresh world state.connection) := by
        intro fresh
        refine overlooks fun running member _ => ?_
        cases member
        exact fresh
      cases result with
      | ok outcome => cases failed
      | error error =>
        cases error with
        | gpu reason =>
          simp only [afterSolve, if_neg (Nat.not_le_of_lt few)]
          exact stale_recovery config _ _ rfl stale
        | invalidConfig reason => cases failed
        | unsupported reason => cases failed
        | searchLimit reason => cases failed
    | _ => cases failed

/-- A run in which a pushed job cancels a running solve. -/
def c18Push : List Event :=
  [.templateReceived c18Job, .templateCompared, .templatePublished, .jobRead, .connectionRead,
    .loopEntered, .jobPushed ⟨11, 0, 1, "01"⟩, .jobChanged]

/-- The run overlooks nothing, and its solve is cancelled. -/
theorem c18_push_is_noticed :
    ∃ state, mine c18World c18Config c18Push = some state ∧
      state.phase.running.map (fun running => running.2.cancel) = some true ∧
      ChangesNoticed c18World state := by
  have reached : (mine c18World c18Config c18Push).map
      (fun state => state.phase.running.map (fun running => running.2.cancel)) =
        some (some true) := by decide +kernel
  obtain ⟨state, ran, cancelled⟩ := Option.map_eq_some_iff.mp reached
  exact ⟨state, ran, cancelled, changes_are_noticed c18World c18Config c18Push state ran
    (by decide +kernel)⟩

/-- A run in which the cancelled solve ends with a GPU error. -/
def c18GpuError : List Event :=
  c18Push ++ [.solved (.error (.gpu "device lost")), .recovered, .loopEntered]

/-- A change can be lost: when the solve that a new height has cancelled ends with a GPU
    error, the loop recovers and solves the next nonce of the old job uncancelled. -/
theorem gpu_error_loses_height_change :
    ¬ ∀ (world : World) (config : MineConfig) (events : List Event) (state : State world),
      mine world config events = some state → ChangesNoticed world state := by
  intro claimed
  have reached : (mine c18World c18Config c18GpuError).map
      (fun state => decide (ChangesNoticed c18World state)) = some false := by decide +kernel
  obtain ⟨state, ran, missed⟩ := Option.map_eq_some_iff.mp reached
  exact of_decide_eq_false missed (claimed c18World c18Config c18GpuError state ran)

end CuckatooMiner.Coordinator
