import Mathlib
import CuckatooMiner.ProofDifficulty
import CuckatooMiner.Foundation.WatchChannel
import CuckatooMiner.Foundation.Runs

/-!
# The mining loop

`mine` gets a job, solves one nonce after another and submits the proofs that are
difficult enough. While a solve runs it selects between the solver, the job channel
and the connection flag; it can only cancel the solve, and looks at flag and job
again when the solver has answered. Between two awaits the loop is sequential, but
the reader task runs beside it, so every look at a channel is a step of its own.

The phases below are the points of the loop between such steps, with the variables
that are in scope there. An event is a step of the loop, or of the reader task, and
carries what the outside decides: jobs, solver results and answers of the server.
A state also remembers what has been observed so far.

An arm of the select marks the change as seen and then borrows the value, which
marks again whatever has arrived in between; the model takes both at the time of
the second.
-/

namespace CuckatooMiner.Coordinator

open SipHash Verify Solver ProofDifficulty

/-- A block template of the node. -/
structure Job where
  height : Nat
  jobId : Nat
  difficulty : Nat
  prePow : String
deriving DecidableEq, Repr

/-- What a submission carries. -/
structure SubmitParams where
  edgeBits : Nat
  height : Nat
  jobId : Nat
  nonce : BitVec 64
  pow : List Nat
deriving DecidableEq, Repr

/-- Answers to a submission. -/
inductive SubmitOutcome
  | accepted
  | rejected (code : Int) (message : String)
deriving DecidableEq, Repr

/-- The code of a share below the difficulty. -/
def rpcLowDifficulty : Int := -32501

/-- The code of a share for a passed height. -/
def rpcSubmittedTooLate : Int := -32503

/-- Rejections after which mining goes on. -/
def isExpectedShareRejection (code : Int) : Bool :=
  code == rpcLowDifficulty || code == rpcSubmittedTooLate

/-- The settings of the loop. -/
structure MineConfig where
  edgeBits : Nat
  cycleLength : Nat
  rounds : Nat
  maxGraphs : Nat
  nonceStart : BitVec 64
deriving DecidableEq, Repr

/-- What the loop uses from outside the program. Nothing is assumed of the digest or the
    decoder, and of the channels only what their laws say. -/
structure World where
  blake2b : List UInt8 → Digest
  decodeHex : String → Option (List UInt8)
  jobs : WatchChannel (Option Job)
  connection : WatchChannel Bool

/-- A job is stale once the height has changed. -/
def jobIsStale (current latest : Job) : Bool := latest.height != current.height

/-- The latest job, if it makes the current one stale. -/
def staleAgainst (current : Job) (latest : Option Job) : Option Job :=
  latest.filter (jobIsStale current)

/-- The latest job, if it is higher than a template. -/
def newerThan (template : Job) (latest : Option Job) : Option Job :=
  latest.filter fun pushed => decide (pushed.height > template.height)

/-- The next nonce, unless the nonces are exhausted. -/
def nextNonce (nonce : BitVec 64) : Option (BitVec 64) :=
  if nonce.toNat + 1 < 2 ^ 64 then some (nonce + 1) else none

/-- The variables of the loop. -/
structure Locals where
  currentJob : Job
  prePow : List UInt8
  nonce : BitVec 64
  graphs : Nat
  consecutiveSolverErrors : Nat
deriving DecidableEq, Repr

/-- A running solve: its request, the keys computed for it, its cancel flag and
    which channels the select still listens to. -/
structure Solve where
  request : SolveRequest
  keys : SipKeys
  cancel : Bool
  jobChannelOpen : Bool
  connectionChannelOpen : Bool
deriving DecidableEq, Repr

/-- The points of the loop. While a job is requested, the variables are those from
    before the reconnect, and absent at start-up. -/
inductive Phase
  /-- Waiting for the answer to a job request. -/
  | requesting (before : Option Locals)
  /-- A template has arrived; the latest push is looked at next. -/
  | comparing (before : Option Locals) (template : Job)
  /-- The template is published next. -/
  | publishing (before : Option Locals) (template : Job)
  /-- The connection is given up next. -/
  | reconnecting (before : Option Locals)
  /-- Waiting for a new connection. -/
  | connecting (before : Option Locals)
  /-- Waiting for the answer to the login. -/
  | loggingIn (before : Option Locals)
  /-- Start-up: the latest job is looked at next. -/
  | readingJob (job : Job)
  /-- Start-up: the connection flag is looked at next. -/
  | readingConnection (locals : Locals)
  /-- The head of the loop. -/
  | loopHead (locals : Locals)
  /-- The select around a solve. -/
  | solving (locals : Locals) (solve : Solve)
  /-- Waiting for the solver to recover. -/
  | recovering (locals : Locals)
  /-- The solver has answered; the connection is looked at next. -/
  | completed (locals : Locals) (keys : SipKeys) (outcome : SolveOutcome)
  /-- The connection stands; the latest job is looked at next. -/
  | examining (locals : Locals) (keys : SipKeys) (outcome : SolveOutcome)
  /-- Waiting for the answer to a submission, which may have been written. -/
  | submitting (locals : Locals) (share : SubmitParams) (written : Bool)
  /-- The loop has returned. -/
  | finished (result : Except String Unit)

/-- What can be observed from outside the loop. -/
inductive Observation
  /-- The node has handed out a job. -/
  | received (job : Job)
  /-- The solver has answered a request. -/
  | solved (request : SolveRequest) (result : Except SolveError SolveOutcome)
  /-- A submission for a template has been written to the network. -/
  | written (template : List UInt8) (share : SubmitParams)
deriving DecidableEq

/-- The loop, its two channels and what has been observed, latest first. -/
structure State (world : World) where
  phase : Phase
  jobs : world.jobs.State
  connection : world.connection.State
  history : List Observation

/-- The steps of the reader task and of the loop. -/
inductive Event
  | jobPushed (job : Job)
  | connectionLost
  | jobRequestFailed
  | templateReceived (template : Job)
  | templateCompared
  | templatePublished
  | disconnected
  | connectFailed
  | reconnected
  | loginFailed
  | loggedIn
  | jobRead
  | connectionRead
  | loopEntered
  | jobChanged
  | jobChannelClosed
  | connectionChanged
  | connectionChannelClosed
  | solved (result : Except SolveError SolveOutcome)
  | solverPanicked
  | recovered
  | recoveryPanicked
  | connectionChecked
  | jobExamined
  | submitWritten
  | submitAnswered (answer : SubmitOutcome)
  | submitFailed
deriving DecidableEq

section

variable (world : World) (config : MineConfig)

/-- The request for the current nonce. -/
def requestFor (locals : Locals) : SolveRequest :=
  ⟨locals.prePow, locals.nonce, true, config.edgeBits, config.cycleLength, config.rounds⟩

/-- Go on with the next nonce. -/
def advance (locals : Locals) : Phase :=
  match nextNonce locals.nonce with
  | none => .finished (.error "nonce space exhausted at u64::MAX")
  | some nonce => .loopHead { locals with nonce := nonce }

/-- Go on with another job from the first nonce. -/
def takeOver (locals : Locals) (job : Job) : Phase :=
  match world.decodeHex job.prePow with
  | none => .finished (.error "job contains invalid pre_pow hex")
  | some prePow =>
      .loopHead { locals with currentJob := job, prePow := prePow, nonce := config.nonceStart }

/-- Go on with the job that was requested. -/
def acquired (before : Option Locals) (job : Job) : Phase :=
  match before with
  | none => .readingJob job
  | some locals => takeOver world config locals job

/-- Start with the latest job if the requested one is already stale. -/
def startUp (job : Job) (latest : Option Job) : Phase :=
  let currentJob := (staleAgainst job latest).getD job
  match world.decodeHex currentJob.prePow with
  | none => .finished (.error "job contains invalid pre_pow hex")
  | some prePow => .readingConnection ⟨currentJob, prePow, config.nonceStart, 0, 0⟩

/-- The head of the loop: start a solve unless enough graphs were searched. -/
def enterLoop (locals : Locals) : Phase :=
  if config.maxGraphs = 0 ∨ locals.graphs < config.maxGraphs then
    let request := requestFor config locals
    .solving locals ⟨request, request.sipKeys world.blake2b, false, true, true⟩
  else .finished (.ok ())

/-- What follows the answer of a solver. -/
def afterSolve (locals : Locals) (solve : Solve) : Except SolveError SolveOutcome → Phase
  | .ok outcome =>
      .completed { locals with graphs := locals.graphs + 1, consecutiveSolverErrors := 0 }
        solve.keys outcome
  | .error (.gpu _) =>
      let errors := locals.consecutiveSolverErrors + 1
      if errors ≥ 3 then .finished (.error "solver failed three times in a row")
      else .recovering { locals with consecutiveSolverErrors := errors }
  | .error _ => .finished (.error ("solving nonce " ++ toString locals.nonce.toNat))

/-- Use the outcome of a solve for a job that still stands. -/
def useOutcome (locals : Locals) (keys : SipKeys) : SolveOutcome → Phase
  | .proof proof =>
      match verifyCycle keys config.edgeBits config.cycleLength proof with
      | .error _ => .finished (.error "solver returned an invalid proof; refusing submission")
      | .ok () =>
          let difficulty := unscaledProofDifficulty world.blake2b proof config.edgeBits
          if difficulty ≥ locals.currentJob.difficulty then
            .submitting locals ⟨config.edgeBits, locals.currentJob.height, locals.currentJob.jobId,
              locals.nonce, proof.nonces⟩ false
          else advance locals
  | .noCycle => advance locals
  | .cancelled => .loopHead locals
  | .inconclusive _ => advance locals

/-- Take another job over if the current one is stale; use the outcome otherwise. -/
def examine (locals : Locals) (keys : SipKeys) (outcome : SolveOutcome) (latest : Option Job) :
    Phase :=
  match staleAgainst locals.currentJob latest with
  | some job => takeOver world config locals job
  | none => useOutcome world config locals keys outcome

/-- What follows the answer to a submission. -/
def afterSubmit (locals : Locals) : SubmitOutcome → Phase
  | .accepted => advance locals
  | .rejected code message =>
      if isExpectedShareRejection code then advance locals
      else .finished (.error ("verified share rejected with code " ++ toString code ++ ": " ++ message))

/-- The state in which the loop starts on a connected client. -/
def start : State world where
  phase :=
    if config.cycleLength ≠ 42 then
      .finished (.error "Grin Stratum submission requires --cycle-length 42")
    else .requesting none
  jobs := world.jobs.channel none
  connection := world.connection.sendReplace (world.connection.channel false) true
  history := []

/-- The steps of the loop and of the reader task. A step that is not possible in a state is
    none. What the node answers and what a solve comes to is given by the step; what is printed
    and the waits between attempts are left out. -/
def step (state : State world) : Event → Option (State world)
  | .jobPushed job =>
      if (world.decodeHex job.prePow).isSome then
        some { state with
          jobs := world.jobs.sendReplace state.jobs (some job)
          history := .received job :: state.history }
      else none
  | .connectionLost =>
      some { state with connection := world.connection.sendReplace state.connection false }
  | .jobRequestFailed =>
      match state.phase with
      | .requesting before => some { state with phase := .reconnecting before }
      | _ => none
  | .templateReceived template =>
      match state.phase with
      | .requesting before =>
          if (world.decodeHex template.prePow).isSome then
            some { state with
              phase := .comparing before template
              history := .received template :: state.history }
          else none
      | _ => none
  | .templateCompared =>
      match state.phase with
      | .comparing before template =>
          match newerThan template (world.jobs.borrow state.jobs) with
          | some pushed => some { state with phase := acquired world config before pushed }
          | none => some { state with phase := .publishing before template }
      | _ => none
  | .templatePublished =>
      match state.phase with
      | .publishing before template =>
          some { state with
            phase := acquired world config before template
            jobs := world.jobs.sendReplace state.jobs (some template) }
      | _ => none
  | .disconnected =>
      match state.phase with
      | .reconnecting before =>
          some { state with
            phase := .connecting before
            connection := world.connection.sendReplace state.connection false }
      | _ => none
  | .connectFailed =>
      match state.phase with
      | .connecting before => some { state with phase := .reconnecting before }
      | _ => none
  | .reconnected =>
      match state.phase with
      | .connecting before =>
          some { state with
            phase := .loggingIn before
            connection := world.connection.sendReplace state.connection true }
      | _ => none
  | .loginFailed =>
      match state.phase with
      | .loggingIn before =>
          some { state with
            phase := .reconnecting before
            connection := world.connection.sendReplace state.connection false }
      | _ => none
  | .loggedIn =>
      match state.phase with
      | .loggingIn before => some { state with phase := .requesting before }
      | _ => none
  | .jobRead =>
      match state.phase with
      | .readingJob job =>
          some { state with
            phase := startUp world config job (world.jobs.borrow state.jobs)
            jobs := world.jobs.borrowAndUpdate state.jobs }
      | _ => none
  | .connectionRead =>
      match state.phase with
      | .readingConnection locals =>
          some { state with
            phase := .loopHead locals
            connection := world.connection.borrowAndUpdate state.connection }
      | _ => none
  | .loopEntered =>
      match state.phase with
      | .loopHead locals => some { state with phase := enterLoop world config locals }
      | _ => none
  | .jobChanged =>
      match state.phase with
      | .solving locals solve =>
          if solve.jobChannelOpen ∧ world.jobs.unseen state.jobs then
            let stale := (staleAgainst locals.currentJob (world.jobs.borrow state.jobs)).isSome
            some { state with
              phase := .solving locals { solve with cancel := solve.cancel || stale }
              jobs := world.jobs.borrowAndUpdate state.jobs }
          else none
      | _ => none
  | .jobChannelClosed =>
      match state.phase with
      | .solving locals solve =>
          if solve.jobChannelOpen then
            some { state with
              phase := .solving locals { solve with cancel := true, jobChannelOpen := false } }
          else none
      | _ => none
  | .connectionChanged =>
      match state.phase with
      | .solving locals solve =>
          if solve.connectionChannelOpen ∧ world.connection.unseen state.connection then
            let lost := !world.connection.borrow state.connection
            some { state with
              phase := .solving locals { solve with cancel := solve.cancel || lost }
              connection := world.connection.borrowAndUpdate state.connection }
          else none
      | _ => none
  | .connectionChannelClosed =>
      match state.phase with
      | .solving locals solve =>
          if solve.connectionChannelOpen then
            some { state with
              phase := .solving locals { solve with cancel := true, connectionChannelOpen := false } }
          else none
      | _ => none
  | .solved result =>
      match state.phase with
      | .solving locals solve =>
          some { state with
            phase := afterSolve locals solve result
            history := .solved solve.request result :: state.history }
      | _ => none
  | .solverPanicked =>
      match state.phase with
      | .solving _ _ => some { state with phase := .finished (.error "solver task panicked") }
      | _ => none
  | .recovered =>
      match state.phase with
      | .recovering locals => some { state with phase := advance locals }
      | _ => none
  | .recoveryPanicked =>
      match state.phase with
      | .recovering _ =>
          some { state with phase := .finished (.error "solver recovery task panicked") }
      | _ => none
  | .connectionChecked =>
      match state.phase with
      | .completed locals keys outcome =>
          if world.connection.borrow state.connection then
            some { state with phase := .examining locals keys outcome }
          else some { state with phase := .reconnecting (some locals) }
      | _ => none
  | .jobExamined =>
      match state.phase with
      | .examining locals keys outcome =>
          some { state with
            phase := examine world config locals keys outcome (world.jobs.borrow state.jobs)
            jobs := world.jobs.borrowAndUpdate state.jobs }
      | _ => none
  | .submitWritten =>
      match state.phase with
      | .submitting locals share false =>
          some { state with
            phase := .submitting locals share true
            history := .written locals.prePow share :: state.history }
      | _ => none
  | .submitAnswered answer =>
      match state.phase with
      | .submitting locals _ true => some { state with phase := afterSubmit locals answer }
      | _ => none
  | .submitFailed =>
      match state.phase with
      | .submitting locals _ _ => some { state with phase := .reconnecting (some locals) }
      | _ => none

/-- A run of the loop from its start. The answers of the node, the outcomes of the solver and
    the order of the steps are open. -/
def mine (events : List Event) : Option (State world) :=
  Runs.run (step world config) (start world config) events

end

/-! ## What a step can do -/

section

variable {world : World} {config : MineConfig}

/-- Every step with what it requires of the state before it. -/
inductive Step (world : World) (config : MineConfig) (state : State world) :
    Event → State world → Prop
  | jobPushed (job : Job) (valid : (world.decodeHex job.prePow).isSome) :
      Step world config state (.jobPushed job) { state with
        jobs := world.jobs.sendReplace state.jobs (some job)
        history := .received job :: state.history }
  | connectionLost :
      Step world config state .connectionLost { state with
        connection := world.connection.sendReplace state.connection false }
  | jobRequestFailed (before : Option Locals) (phase : state.phase = .requesting before) :
      Step world config state .jobRequestFailed { state with phase := .reconnecting before }
  | templateReceived (before : Option Locals) (template : Job)
      (phase : state.phase = .requesting before)
      (valid : (world.decodeHex template.prePow).isSome) :
      Step world config state (.templateReceived template) { state with
        phase := .comparing before template
        history := .received template :: state.history }
  | pushPreferred (before : Option Locals) (template pushed : Job)
      (phase : state.phase = .comparing before template)
      (newer : newerThan template (world.jobs.borrow state.jobs) = some pushed) :
      Step world config state .templateCompared { state with
        phase := acquired world config before pushed }
  | templatePreferred (before : Option Locals) (template : Job)
      (phase : state.phase = .comparing before template)
      (older : newerThan template (world.jobs.borrow state.jobs) = none) :
      Step world config state .templateCompared { state with phase := .publishing before template }
  | templatePublished (before : Option Locals) (template : Job)
      (phase : state.phase = .publishing before template) :
      Step world config state .templatePublished { state with
        phase := acquired world config before template
        jobs := world.jobs.sendReplace state.jobs (some template) }
  | disconnected (before : Option Locals) (phase : state.phase = .reconnecting before) :
      Step world config state .disconnected { state with
        phase := .connecting before
        connection := world.connection.sendReplace state.connection false }
  | connectFailed (before : Option Locals) (phase : state.phase = .connecting before) :
      Step world config state .connectFailed { state with phase := .reconnecting before }
  | reconnected (before : Option Locals) (phase : state.phase = .connecting before) :
      Step world config state .reconnected { state with
        phase := .loggingIn before
        connection := world.connection.sendReplace state.connection true }
  | loginFailed (before : Option Locals) (phase : state.phase = .loggingIn before) :
      Step world config state .loginFailed { state with
        phase := .reconnecting before
        connection := world.connection.sendReplace state.connection false }
  | loggedIn (before : Option Locals) (phase : state.phase = .loggingIn before) :
      Step world config state .loggedIn { state with phase := .requesting before }
  | jobRead (job : Job) (phase : state.phase = .readingJob job) :
      Step world config state .jobRead { state with
        phase := startUp world config job (world.jobs.borrow state.jobs)
        jobs := world.jobs.borrowAndUpdate state.jobs }
  | connectionRead (locals : Locals) (phase : state.phase = .readingConnection locals) :
      Step world config state .connectionRead { state with
        phase := .loopHead locals
        connection := world.connection.borrowAndUpdate state.connection }
  | loopEntered (locals : Locals) (phase : state.phase = .loopHead locals) :
      Step world config state .loopEntered { state with phase := enterLoop world config locals }
  | jobChanged (locals : Locals) (solve : Solve) (phase : state.phase = .solving locals solve)
      (ready : solve.jobChannelOpen ∧ world.jobs.unseen state.jobs) :
      Step world config state .jobChanged { state with
        phase := .solving locals { solve with
          cancel := solve.cancel ||
            (staleAgainst locals.currentJob (world.jobs.borrow state.jobs)).isSome }
        jobs := world.jobs.borrowAndUpdate state.jobs }
  | jobChannelClosed (locals : Locals) (solve : Solve)
      (phase : state.phase = .solving locals solve) (listening : solve.jobChannelOpen) :
      Step world config state .jobChannelClosed { state with
        phase := .solving locals { solve with cancel := true, jobChannelOpen := false } }
  | connectionChanged (locals : Locals) (solve : Solve)
      (phase : state.phase = .solving locals solve)
      (ready : solve.connectionChannelOpen ∧ world.connection.unseen state.connection) :
      Step world config state .connectionChanged { state with
        phase := .solving locals { solve with
          cancel := solve.cancel || !world.connection.borrow state.connection }
        connection := world.connection.borrowAndUpdate state.connection }
  | connectionChannelClosed (locals : Locals) (solve : Solve)
      (phase : state.phase = .solving locals solve) (listening : solve.connectionChannelOpen) :
      Step world config state .connectionChannelClosed { state with
        phase := .solving locals { solve with cancel := true, connectionChannelOpen := false } }
  | solved (locals : Locals) (solve : Solve) (result : Except SolveError SolveOutcome)
      (phase : state.phase = .solving locals solve) :
      Step world config state (.solved result) { state with
        phase := afterSolve locals solve result
        history := .solved solve.request result :: state.history }
  | solverPanicked (locals : Locals) (solve : Solve) (phase : state.phase = .solving locals solve) :
      Step world config state .solverPanicked { state with
        phase := .finished (.error "solver task panicked") }
  | recovered (locals : Locals) (phase : state.phase = .recovering locals) :
      Step world config state .recovered { state with phase := advance locals }
  | recoveryPanicked (locals : Locals) (phase : state.phase = .recovering locals) :
      Step world config state .recoveryPanicked { state with
        phase := .finished (.error "solver recovery task panicked") }
  | connectionStands (locals : Locals) (keys : SipKeys) (outcome : SolveOutcome)
      (phase : state.phase = .completed locals keys outcome)
      (connected : world.connection.borrow state.connection = true) :
      Step world config state .connectionChecked { state with
        phase := .examining locals keys outcome }
  | connectionGone (locals : Locals) (keys : SipKeys) (outcome : SolveOutcome)
      (phase : state.phase = .completed locals keys outcome)
      (lost : world.connection.borrow state.connection = false) :
      Step world config state .connectionChecked { state with phase := .reconnecting (some locals) }
  | jobExamined (locals : Locals) (keys : SipKeys) (outcome : SolveOutcome)
      (phase : state.phase = .examining locals keys outcome) :
      Step world config state .jobExamined { state with
        phase := examine world config locals keys outcome (world.jobs.borrow state.jobs)
        jobs := world.jobs.borrowAndUpdate state.jobs }
  | submitWritten (locals : Locals) (share : SubmitParams)
      (phase : state.phase = .submitting locals share false) :
      Step world config state .submitWritten { state with
        phase := .submitting locals share true
        history := .written locals.prePow share :: state.history }
  | submitAnswered (locals : Locals) (share : SubmitParams) (answer : SubmitOutcome)
      (phase : state.phase = .submitting locals share true) :
      Step world config state (.submitAnswered answer) { state with
        phase := afterSubmit locals answer }
  | submitFailed (locals : Locals) (share : SubmitParams) (written : Bool)
      (phase : state.phase = .submitting locals share written) :
      Step world config state .submitFailed { state with phase := .reconnecting (some locals) }

/-- The loop takes no other steps. -/
theorem step_cases {state next : State world} {event : Event}
    (stepped : step world config state event = some next) : Step world config state event next := by
  cases event with
  | jobPushed job =>
    simp only [step] at stepped
    split at stepped
    · rename_i valid
      cases stepped
      exact .jobPushed job valid
    · cases stepped
  | connectionLost =>
    cases stepped
    exact .connectionLost
  | jobRequestFailed =>
    simp only [step] at stepped
    split at stepped
    · rename_i before phase
      cases stepped
      exact .jobRequestFailed before phase
    · cases stepped
  | templateReceived template =>
    simp only [step] at stepped
    split at stepped
    · rename_i before phase
      split at stepped
      · rename_i valid
        cases stepped
        exact .templateReceived before template phase valid
      · cases stepped
    · cases stepped
  | templateCompared =>
    simp only [step] at stepped
    split at stepped
    · rename_i before template phase
      split at stepped
      · rename_i pushed newer
        cases stepped
        exact .pushPreferred before template pushed phase newer
      · rename_i older
        cases stepped
        exact .templatePreferred before template phase older
    · cases stepped
  | templatePublished =>
    simp only [step] at stepped
    split at stepped
    · rename_i before template phase
      cases stepped
      exact .templatePublished before template phase
    · cases stepped
  | disconnected =>
    simp only [step] at stepped
    split at stepped
    · rename_i before phase
      cases stepped
      exact .disconnected before phase
    · cases stepped
  | connectFailed =>
    simp only [step] at stepped
    split at stepped
    · rename_i before phase
      cases stepped
      exact .connectFailed before phase
    · cases stepped
  | reconnected =>
    simp only [step] at stepped
    split at stepped
    · rename_i before phase
      cases stepped
      exact .reconnected before phase
    · cases stepped
  | loginFailed =>
    simp only [step] at stepped
    split at stepped
    · rename_i before phase
      cases stepped
      exact .loginFailed before phase
    · cases stepped
  | loggedIn =>
    simp only [step] at stepped
    split at stepped
    · rename_i before phase
      cases stepped
      exact .loggedIn before phase
    · cases stepped
  | jobRead =>
    simp only [step] at stepped
    split at stepped
    · rename_i job phase
      cases stepped
      exact .jobRead job phase
    · cases stepped
  | connectionRead =>
    simp only [step] at stepped
    split at stepped
    · rename_i locals phase
      cases stepped
      exact .connectionRead locals phase
    · cases stepped
  | loopEntered =>
    simp only [step] at stepped
    split at stepped
    · rename_i locals phase
      cases stepped
      exact .loopEntered locals phase
    · cases stepped
  | jobChanged =>
    simp only [step] at stepped
    split at stepped
    · rename_i locals solve phase
      split at stepped
      · rename_i ready
        cases stepped
        exact .jobChanged locals solve phase ready
      · cases stepped
    · cases stepped
  | jobChannelClosed =>
    simp only [step] at stepped
    split at stepped
    · rename_i locals solve phase
      split at stepped
      · rename_i listening
        cases stepped
        exact .jobChannelClosed locals solve phase listening
      · cases stepped
    · cases stepped
  | connectionChanged =>
    simp only [step] at stepped
    split at stepped
    · rename_i locals solve phase
      split at stepped
      · rename_i ready
        cases stepped
        exact .connectionChanged locals solve phase ready
      · cases stepped
    · cases stepped
  | connectionChannelClosed =>
    simp only [step] at stepped
    split at stepped
    · rename_i locals solve phase
      split at stepped
      · rename_i listening
        cases stepped
        exact .connectionChannelClosed locals solve phase listening
      · cases stepped
    · cases stepped
  | solved result =>
    simp only [step] at stepped
    split at stepped
    · rename_i locals solve phase
      cases stepped
      exact .solved locals solve result phase
    · cases stepped
  | solverPanicked =>
    simp only [step] at stepped
    split at stepped
    · rename_i locals solve phase
      cases stepped
      exact .solverPanicked locals solve phase
    · cases stepped
  | recovered =>
    simp only [step] at stepped
    split at stepped
    · rename_i locals phase
      cases stepped
      exact .recovered locals phase
    · cases stepped
  | recoveryPanicked =>
    simp only [step] at stepped
    split at stepped
    · rename_i locals phase
      cases stepped
      exact .recoveryPanicked locals phase
    · cases stepped
  | connectionChecked =>
    simp only [step] at stepped
    split at stepped
    · rename_i locals keys outcome phase
      split at stepped
      · rename_i connected
        cases stepped
        exact .connectionStands locals keys outcome phase connected
      · rename_i lost
        cases stepped
        exact .connectionGone locals keys outcome phase (Bool.eq_false_iff.mpr lost)
    · cases stepped
  | jobExamined =>
    simp only [step] at stepped
    split at stepped
    · rename_i locals keys outcome phase
      cases stepped
      exact .jobExamined locals keys outcome phase
    · cases stepped
  | submitWritten =>
    simp only [step] at stepped
    split at stepped
    · rename_i locals share phase
      cases stepped
      exact .submitWritten locals share phase
    · cases stepped
  | submitAnswered answer =>
    simp only [step] at stepped
    split at stepped
    · rename_i locals share phase
      cases stepped
      exact .submitAnswered locals share answer phase
    · cases stepped
  | submitFailed =>
    simp only [step] at stepped
    split at stepped
    · rename_i locals share written phase
      cases stepped
      exact .submitFailed locals share written phase
    · cases stepped

end

end CuckatooMiner.Coordinator
