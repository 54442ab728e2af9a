import Mathlib
import CuckatooMiner.Coordinator

/-!
# Submitted shares

The loop keeps the current job, its decoded header, the nonce and the keys of the
running solve in variables of their own. Whatever the solver, the node and the
connection do, they belong together: the header is that of the current job, a job
that the node has handed out, and the keys are those of this header and nonce. So a
submitted share is a verified proof for the job it names.
-/

namespace CuckatooMiner.Coordinator

open SipHash Verify Solver ProofDifficulty

/-- A share is a verified and difficult enough proof for a job, found by the solve of
    the job's header and the share's nonce. -/
structure VerifiedShare (world : World) (config : MineConfig) (history : List Observation)
    (share : SubmitParams) (job : Job) (prePow : List UInt8) : Prop where
  received : Observation.received job ∈ history
  header : world.decodeHex job.prePow = some prePow
  height : share.height = job.height
  jobId : share.jobId = job.jobId
  edgeBits : share.edgeBits = config.edgeBits
  verified : verifyCycle (deriveKeys world.blake2b prePow share.nonce) config.edgeBits 42
    ⟨share.pow⟩ = .ok ()
  solved : Observation.solved ⟨prePow, share.nonce, true, config.edgeBits, 42, config.rounds⟩
    (.ok (.proof ⟨share.pow⟩)) ∈ history
  difficulty : job.difficulty ≤ unscaledProofDifficulty world.blake2b ⟨share.pow⟩ config.edgeBits

section

variable (world : World) (config : MineConfig) (history : List Observation)

/-- The current job was handed out, and the header is its header. -/
structure Current (locals : Locals) : Prop where
  received : Observation.received locals.currentJob ∈ history
  header : world.decodeHex locals.currentJob.prePow = some locals.prePow

/-- The keys and the outcome are those of the request for the current nonce. -/
structure Answered (locals : Locals) (keys : SipKeys) (outcome : SolveOutcome) : Prop where
  keys : keys = (requestFor config locals).sipKeys world.blake2b
  solved : Observation.solved (requestFor config locals) (.ok outcome) ∈ history

/-- What the variables in scope have in common. -/
def PhaseSound : Phase → Prop
  | .comparing _ template | .publishing _ template => .received template ∈ history
  | .readingJob job => .received job ∈ history
  | .readingConnection locals | .loopHead locals | .recovering locals =>
      Current world history locals
  | .solving locals solve => Current world history locals ∧
      solve.request = requestFor config locals ∧ solve.keys = solve.request.sipKeys world.blake2b
  | .completed locals keys outcome | .examining locals keys outcome =>
      Current world history locals ∧ Answered world config history locals keys outcome
  | .submitting locals share _ => Current world history locals ∧
      VerifiedShare world config history share locals.currentJob locals.prePow
  | _ => True

/-- The variables belong together, and so does the job in the channel. It says nothing of the
    connection, and nothing of jobs that are no longer current. -/
structure Sound (state : State world) : Prop where
  phase : PhaseSound world config state.history state.phase
  channel : ∀ job, world.jobs.borrow state.jobs = some job → .received job ∈ state.history

end

variable {world : World} {config : MineConfig} {history : List Observation} {locals : Locals}

/-- Later observations take nothing back. -/
theorem phase_sound_later (phase : Phase) (later : Observation)
    (sound : PhaseSound world config history phase) :
    PhaseSound world config (later :: history) phase := by
  have current : ∀ locals, Current world history locals → Current world (later :: history) locals :=
    fun _ holds => ⟨List.mem_cons_of_mem _ holds.received, holds.header⟩
  cases phase with
  | comparing before template => exact List.mem_cons_of_mem _ sound
  | publishing before template => exact List.mem_cons_of_mem _ sound
  | readingJob job => exact List.mem_cons_of_mem _ sound
  | readingConnection locals => exact current _ sound
  | loopHead locals => exact current _ sound
  | recovering locals => exact current _ sound
  | solving locals solve => exact ⟨current _ sound.1, sound.2⟩
  | completed locals keys outcome =>
    exact ⟨current _ sound.1, sound.2.keys, List.mem_cons_of_mem _ sound.2.solved⟩
  | examining locals keys outcome =>
    exact ⟨current _ sound.1, sound.2.keys, List.mem_cons_of_mem _ sound.2.solved⟩
  | submitting locals share written =>
    exact ⟨current _ sound.1, { sound.2 with
      received := List.mem_cons_of_mem _ sound.2.received
      solved := List.mem_cons_of_mem _ sound.2.solved }⟩
  | _ => trivial

/-- Advancing keeps the job. -/
theorem advance_sound (current : Current world history locals) :
    PhaseSound world config history (advance locals) := by
  unfold advance
  split
  · trivial
  · exact ⟨current.received, current.header⟩

/-- Taking a job over decodes its header. -/
theorem take_over_sound (job : Job) (received : .received job ∈ history) :
    PhaseSound world config history (takeOver world config locals job) := by
  unfold takeOver
  split
  · trivial
  · rename_i header
    exact ⟨received, header⟩

/-- So does acquiring it. -/
theorem acquired_sound (before : Option Locals) (job : Job) (received : .received job ∈ history) :
    PhaseSound world config history (acquired world config before job) := by
  cases before with
  | none => exact received
  | some locals => exact take_over_sound job received

/-- At start-up the requested job or the latest one is taken over. -/
theorem start_up_sound (job : Job) (latest : Option Job) (received : .received job ∈ history)
    (channel : ∀ pushed, latest = some pushed → .received pushed ∈ history) :
    PhaseSound world config history (startUp world config job latest) := by
  have chosen : .received ((staleAgainst job latest).getD job) ∈ history := by
    cases stale : staleAgainst job latest with
    | none => exact received
    | some pushed => exact channel pushed (Option.eq_some_of_filter_eq_some stale)
  unfold startUp
  simp only
  split
  · trivial
  · rename_i header
    exact ⟨chosen, header⟩

/-- A new solve is one of the current job and nonce. -/
theorem enter_loop_sound (current : Current world history locals) :
    PhaseSound world config history (enterLoop world config locals) := by
  unfold enterLoop
  split
  · exact ⟨current, rfl, rfl⟩
  · trivial

/-- The answer of a solver is kept with the keys of its request. -/
theorem after_solve_sound (solve : Solve) (result : Except SolveError SolveOutcome)
    (sound : PhaseSound world config history (.solving locals solve)) :
    PhaseSound world config (.solved solve.request result :: history)
      (afterSolve locals solve result) := by
  obtain ⟨⟨received, header⟩, request, keys⟩ := sound
  unfold afterSolve
  split
  · refine ⟨⟨List.mem_cons_of_mem _ received, header⟩, ?_, ?_⟩
    · rw [keys, request]
      rfl
    · rw [request]
      exact List.mem_cons_self
  · simp only
    split
    · trivial
    · exact ⟨List.mem_cons_of_mem _ received, header⟩
  · trivial

/-- What is submitted has been verified for the current job. -/
theorem use_outcome_sound (length : config.cycleLength = 42) (keys : SipKeys)
    (outcome : SolveOutcome) (current : Current world history locals)
    (answered : Answered world config history locals keys outcome) :
    PhaseSound world config history (useOutcome world config locals keys outcome) := by
  unfold useOutcome
  split
  · rename_i proof
    split
    · trivial
    · rename_i verified
      simp only
      split
      · rename_i difficulty
        refine ⟨current, current.received, current.header, rfl, rfl, rfl, ?_, ?_, difficulty⟩
        · rw [answered.keys, length] at verified
          exact verified
        · have solved := answered.solved
          rw [requestFor, length] at solved
          exact solved
      · exact advance_sound current
  · exact advance_sound current
  · exact current
  · exact advance_sound current

/-- A stale job is replaced by a job of the node. -/
theorem examine_sound (length : config.cycleLength = 42) (keys : SipKeys)
    (outcome : SolveOutcome) (latest : Option Job) (current : Current world history locals)
    (answered : Answered world config history locals keys outcome)
    (channel : ∀ pushed, latest = some pushed → .received pushed ∈ history) :
    PhaseSound world config history (examine world config locals keys outcome latest) := by
  unfold examine
  split
  · rename_i job stale
    exact take_over_sound job (channel job (Option.eq_some_of_filter_eq_some stale))
  · exact use_outcome_sound length keys outcome current answered

/-- Every step keeps the variables together. -/
theorem step_sound (length : config.cycleLength = 42) (state : State world) (event : Event)
    (next : State world) (sound : Sound world config state)
    (stepped : step world config state event = some next) : Sound world config next := by
  obtain ⟨holds, channel⟩ := sound
  -- Marking the job as seen leaves it in the channel.
  have marked : ∀ job, world.jobs.borrow (world.jobs.borrowAndUpdate state.jobs) = some job →
      Observation.received job ∈ state.history := fun job latest =>
    channel job (by rwa [world.jobs.borrow_update] at latest)
  cases step_cases stepped with
  | jobPushed job valid =>
    refine ⟨phase_sound_later _ _ holds, fun latest borrowed => ?_⟩
    rw [world.jobs.borrow_send, Option.some.injEq] at borrowed
    subst borrowed
    exact List.mem_cons_self
  | connectionLost => exact ⟨holds, channel⟩
  | jobRequestFailed before phase => exact ⟨trivial, channel⟩
  | templateReceived before template phase valid =>
    exact ⟨List.mem_cons_self, fun job latest => List.mem_cons_of_mem _ (channel job latest)⟩
  | pushPreferred before template pushed phase newer =>
    exact ⟨acquired_sound before pushed
      (channel pushed (Option.eq_some_of_filter_eq_some newer)), channel⟩
  | templatePreferred before template phase older =>
    rw [phase] at holds
    exact ⟨holds, channel⟩
  | templatePublished before template phase =>
    rw [phase] at holds
    refine ⟨acquired_sound before template holds, fun latest borrowed => ?_⟩
    rw [world.jobs.borrow_send, Option.some.injEq] at borrowed
    subst borrowed
    exact holds
  | disconnected before phase => exact ⟨trivial, channel⟩
  | connectFailed before phase => exact ⟨trivial, channel⟩
  | reconnected before phase => exact ⟨trivial, channel⟩
  | loginFailed before phase => exact ⟨trivial, channel⟩
  | loggedIn before phase => exact ⟨trivial, channel⟩
  | jobRead job phase =>
    rw [phase] at holds
    exact ⟨start_up_sound job _ holds channel, marked⟩
  | connectionRead locals phase =>
    rw [phase] at holds
    exact ⟨holds, channel⟩
  | loopEntered locals phase =>
    rw [phase] at holds
    exact ⟨enter_loop_sound holds, channel⟩
  | jobChanged locals solve phase ready =>
    rw [phase] at holds
    exact ⟨holds, marked⟩
  | jobChannelClosed locals solve phase listening =>
    rw [phase] at holds
    exact ⟨holds, channel⟩
  | connectionChanged locals solve phase ready =>
    rw [phase] at holds
    exact ⟨holds, channel⟩
  | connectionChannelClosed locals solve phase listening =>
    rw [phase] at holds
    exact ⟨holds, channel⟩
  | solved locals solve result phase =>
    rw [phase] at holds
    exact ⟨after_solve_sound solve result holds,
      fun job latest => List.mem_cons_of_mem _ (channel job latest)⟩
  | solverPanicked locals solve phase => exact ⟨trivial, channel⟩
  | recovered locals phase =>
    rw [phase] at holds
    exact ⟨advance_sound holds, channel⟩
  | recoveryPanicked locals phase => exact ⟨trivial, channel⟩
  | connectionStands locals keys outcome phase connected =>
    rw [phase] at holds
    exact ⟨holds, channel⟩
  | connectionGone locals keys outcome phase lost => exact ⟨trivial, channel⟩
  | jobExamined locals keys outcome phase =>
    rw [phase] at holds
    exact ⟨examine_sound length keys outcome _ holds.1 holds.2 channel, marked⟩
  | submitWritten locals share phase =>
    rw [phase] at holds
    exact ⟨phase_sound_later (.submitting locals share true) _ holds,
      fun job latest => List.mem_cons_of_mem _ (channel job latest)⟩
  | submitAnswered locals share answer phase =>
    rw [phase] at holds
    refine ⟨?_, channel⟩
    unfold afterSubmit
    split
    · exact advance_sound holds.1
    · split
      · exact advance_sound holds.1
      · trivial
  | submitFailed locals share written phase => exact ⟨trivial, channel⟩

/-- A loop that has returned takes no further step. -/
theorem finished_stays (result : Except String Unit) (state : State world) (event : Event)
    (next : State world) (finished : state.phase = .finished result)
    (stepped : step world config state event = some next) : next.phase = .finished result := by
  cases event with
  | jobPushed job =>
    simp only [step] at stepped
    split at stepped
    · cases stepped
      exact finished
    · cases stepped
  | connectionLost =>
    cases stepped
    exact finished
  | _ =>
    simp only [step, finished] at stepped
    cases stepped

/-- Whenever a share is submitted, in any run of the loop, it is a verified share of the job
    whose height and identifier it carries: the proof came from the solve of that job's header
    and the submitted nonce, the verifier accepts it for their keys, and it is as difficult as
    the job asks. The outcomes of the solver, the steps of the node and the state of the
    connection are arbitrary. That the node accepts the share is not claimed. -/
theorem submitted_shares_verified (world : World) (config : MineConfig) (events : List Event)
    (state : State world) (locals : Locals) (share : SubmitParams) (written : Bool)
    (ran : mine world config events = some state)
    (submitting : state.phase = .submitting locals share written) :
    ∃ job prePow, VerifiedShare world config state.history share job prePow := by
  by_cases length : config.cycleLength = 42
  · have initial : Sound world config (start world config) := by
      refine ⟨?_, fun job latest => ?_⟩
      · unfold start
        rw [if_neg (not_not.mpr length)]
        trivial
      · rw [start, world.jobs.borrow_channel] at latest
        cases latest
    have sound := Runs.run_invariant (Sound world config) (step_sound length) initial ran
    have holds := sound.phase
    rw [submitting] at holds
    exact ⟨_, _, holds.2⟩
  · have refused := Runs.run_invariant
      (fun state => state.phase =
        .finished (.error "Grin Stratum submission requires --cycle-length 42"))
      (finished_stays _) (by unfold start; rw [if_pos length]) ran
    rw [submitting] at refused
    cases refused

/-- A proof of an eighteen-bit graph. -/
def c18Proof : List Nat :=
  [10314, 14021, 15134, 30319, 33503, 33645, 34282, 38657, 46697, 51560, 78930, 82234, 89639,
    104092, 104555, 105565, 106157, 127348, 132671, 138459, 153192, 153214, 157224, 160279,
    161096, 164039, 166165, 176219, 177336, 180942, 189572, 190168, 194849, 197668, 214343,
    224188, 230161, 236195, 244331, 251293, 254432, 261863]

/-- A world with the digests of the proof's header and nonce, a zero byte and 69, and
    of the packed proof. -/
def c18World : World where
  blake2b bytes :=
    if bytes = [0, 0, 0, 0, 0, 0, 0, 0, 69] then
      ⟨#[6, 167, 20, 75, 100, 60, 25, 43, 172, 170, 26, 248, 92, 220, 188, 224, 81, 185, 254, 41,
        83, 218, 15, 134, 75, 112, 65, 62, 96, 54, 18, 30], rfl⟩
    else
      ⟨#[22, 132, 140, 209, 197, 112, 37, 192, 192, 71, 114, 192, 169, 54, 210, 184, 37, 143, 149,
        189, 229, 4, 126, 30, 143, 133, 218, 119, 69, 212, 255, 141], rfl⟩
  decodeHex text :=
    if text = "00" then some [0] else if text = "01" then some [1] else none
  jobs := WatchChannel.versioned (Option Job)
  connection := WatchChannel.versioned Bool

/-- Mining eighteen-bit graphs from nonce 69. -/
def c18Config : MineConfig := ⟨18, 42, 128, 0, 69⟩

/-- A job with the proof's header. -/
def c18Job : Job := ⟨10, 0, 1, "00"⟩

/-- A run from start-up to the submission of the proof. -/
def c18Submission : List Event :=
  [.templateReceived c18Job, .templateCompared, .templatePublished, .jobRead, .connectionRead,
    .loopEntered, .solved (.ok (.proof ⟨c18Proof⟩)), .connectionChecked, .jobExamined]

/-- The share of a phase that waits for the answer to a submission. -/
def Phase.share : Phase → Option SubmitParams
  | .submitting _ share _ => some share
  | _ => none

/-- The run submits the proof, and the verifier accepts it for the keys of the job. -/
theorem c18_submission_verified :
    ∃ state, mine c18World c18Config c18Submission = some state ∧
      state.phase.share = some ⟨18, 10, 0, 69, c18Proof⟩ ∧
      ∃ job prePow, VerifiedShare c18World c18Config state.history ⟨18, 10, 0, 69, c18Proof⟩ job
        prePow := by
  have reached : (mine c18World c18Config c18Submission).map (fun state => state.phase.share) =
      some (some ⟨18, 10, 0, 69, c18Proof⟩) := by decide +kernel
  obtain ⟨state, ran, shared⟩ := Option.map_eq_some_iff.mp reached
  refine ⟨state, ran, shared, ?_⟩
  cases phase : state.phase with
  | submitting locals share written =>
    rw [phase, Phase.share, Option.some.injEq] at shared
    subst shared
    exact submitted_shares_verified c18World c18Config c18Submission state locals _ written ran phase
  | _ =>
    rw [phase] at shared
    cases shared

end CuckatooMiner.Coordinator
