import Mathlib
import CuckatooMiner.CoordinatorShares

/-!
# Shares sent once

While the loop stays with a template its nonces grow, and it submits at most one
share for each of them. It starts over from the first nonce when it takes a job over
after a reconnect or a change of height, and does not remember what it has sent: a
template that comes back brings the same nonces, and a deterministic solver the same
proofs. So no share is sent twice exactly as long as no template comes back after a
share was sent for it.
-/

namespace CuckatooMiner.Coordinator

open Verify Solver

/-- What identifies a share: the template, the nonce and the proof. -/
structure WrittenShare where
  template : List UInt8
  nonce : BitVec 64
  pow : List Nat
deriving DecidableEq, Repr

/-- The share that an observation shows on the network. -/
def Observation.writtenShare : Observation → Option WrittenShare
  | .written template share => some ⟨template, share.nonce, share.pow⟩
  | _ => none

/-- All shares written to the network, latest first. -/
def writtenShares (history : List Observation) : List WrittenShare :=
  history.filterMap Observation.writtenShare

@[simp] theorem written_shares_received (job : Job) (history : List Observation) :
    writtenShares (.received job :: history) = writtenShares history :=
  rfl

@[simp] theorem written_shares_solved (request : SolveRequest)
    (result : Except SolveError SolveOutcome) (history : List Observation) :
    writtenShares (.solved request result :: history) = writtenShares history :=
  rfl

@[simp] theorem written_shares_written (template : List UInt8) (share : SubmitParams)
    (history : List Observation) :
    writtenShares (.written template share :: history) =
      ⟨template, share.nonce, share.pow⟩ :: writtenShares history :=
  rfl

/-- All answers are those of a deterministic solver. Nothing is assumed of the answers
    themselves. -/
def AnsweredBy (solver : SolveRequest → Except SolveError SolveOutcome)
    (history : List Observation) : Prop :=
  ∀ observation ∈ history, ∀ request result, observation = .solved request result →
    result = solver request

/-- The job with which a step starts over, once the loop has started. -/
def takenOver (world : World) (state : State world) : Event → Option Job
  | .templateCompared =>
      match state.phase with
      | .comparing (some _) template => newerThan template (world.jobs.borrow state.jobs)
      | _ => none
  | .templatePublished =>
      match state.phase with
      | .publishing (some _) template => some template
      | _ => none
  | .jobExamined =>
      match state.phase with
      | .examining locals _ _ => staleAgainst locals.currentJob (world.jobs.borrow state.jobs)
      | _ => none
  | _ => none

/-- No share was written for a template. -/
def Unwritten (shares : List WrittenShare) (template : List UInt8) : Prop :=
  ∀ entry ∈ shares, entry.template ≠ template

/-- A step starts over with a template only if no share was written for it yet. This is a
    condition on the state before the step; it does not look at what the step or a later solve
    finds. -/
def NewTemplate (world : World) (state : State world) (event : Event) : Prop :=
  ∀ prePow ∈ (takenOver world state event).bind (fun job => world.decodeHex job.prePow),
    Unwritten (writtenShares state.history) prePow

instance (world : World) (state : State world) (event : Event) :
    Decidable (NewTemplate world state event) :=
  inferInstanceAs (Decidable (∀ prePow ∈ Option.bind _ _, ∀ entry ∈ _, _ ≠ _))

section

variable (shares : List WrittenShare)

/-- The shares written for the current template have smaller nonces. -/
def Below (locals : Locals) : Prop :=
  ∀ entry ∈ shares, entry.template = locals.prePow → entry.nonce.toNat < locals.nonce.toNat

/-- The shares written for the current template have no larger nonces. -/
def UpTo (locals : Locals) : Prop :=
  ∀ entry ∈ shares, entry.template = locals.prePow → entry.nonce.toNat ≤ locals.nonce.toNat

/-- Nothing is written before the loop has started. -/
def StartsClean (before : Option Locals) : Prop := before = none → shares = []

/-- How the written shares lie to the variables in scope. -/
def PhaseOnce : Phase → Prop
  | .requesting before | .comparing before _ | .publishing before _ | .reconnecting before
  | .connecting before | .loggingIn before => StartsClean shares before
  | .readingJob _ => shares = []
  | .readingConnection locals | .loopHead locals | .solving locals _ | .recovering locals
  | .completed locals _ _ | .examining locals _ _ => Below shares locals
  | .submitting locals share false => Below shares locals ∧ share.nonce = locals.nonce
  | .submitting locals _ true => UpTo shares locals
  | .finished _ => True

end

variable {world : World} {config : MineConfig} {shares : List WrittenShare} {locals : Locals}

/-- Smaller nonces are no larger. -/
theorem Below.upTo (below : Below shares locals) : UpTo shares locals :=
  fun entry member same => Nat.le_of_lt (below entry member same)

/-- Advancing leaves all written nonces behind. -/
theorem advance_once (upTo : UpTo shares locals) : PhaseOnce shares (advance locals) := by
  unfold advance
  split
  · trivial
  · rename_i nonce next
    unfold nextNonce at next
    split at next
    · rename_i room
      cases next
      intro entry member same
      have written := upTo entry member same
      have larger : (locals.nonce + 1).toNat = locals.nonce.toNat + 1 := by
        rw [BitVec.toNat_add, show (1 : BitVec 64).toNat = 1 from rfl]
        exact Nat.mod_eq_of_lt room
      change entry.nonce.toNat < (locals.nonce + 1).toNat
      omega
    · cases next

/-- Starting over with a new template leaves nothing to repeat. -/
theorem take_over_once (job : Job)
    (fresh : ∀ prePow, world.decodeHex job.prePow = some prePow → Unwritten shares prePow) :
    PhaseOnce shares (takeOver world config locals job) := by
  unfold takeOver
  split
  · trivial
  · rename_i prePow header
    intro entry member same
    exact absurd same (fresh prePow header entry member)

/-- A requested job is new, or the loop has not started. -/
theorem acquired_once (before : Option Locals) (job : Job) (clean : StartsClean shares before)
    (fresh : before.isSome → ∀ prePow, world.decodeHex job.prePow = some prePow →
      Unwritten shares prePow) :
    PhaseOnce shares (acquired world config before job) := by
  cases before with
  | none => exact clean rfl
  | some locals => exact take_over_once job (fresh rfl)

/-- With nothing written, any start is clean. -/
theorem start_up_once (job : Job) (latest : Option Job) (clean : shares = []) :
    PhaseOnce shares (startUp world config job latest) := by
  subst clean
  unfold startUp
  simp only
  split
  · trivial
  · intro entry member
    cases member

/-- The answer of a solver changes neither template nor nonce. -/
theorem after_solve_once (solve : Solve) (result : Except SolveError SolveOutcome)
    (below : Below shares locals) : PhaseOnce shares (afterSolve locals solve result) := by
  unfold afterSolve
  split
  · exact below
  · simp only
    split
    · trivial
    · exact below
  · trivial

/-- A share is submitted for the current nonce. -/
theorem use_outcome_once (keys : SipHash.SipKeys) (outcome : SolveOutcome)
    (below : Below shares locals) :
    PhaseOnce shares (useOutcome world config locals keys outcome) := by
  unfold useOutcome
  split
  · split
    · trivial
    · simp only
      split
      · exact ⟨below, rfl⟩
      · exact advance_once below.upTo
  · exact advance_once below.upTo
  · exact below
  · exact advance_once below.upTo

/-- A step that starts over only with new templates repeats no share. -/
theorem step_once (state : State world) (event : Event) (next : State world)
    (once : (writtenShares state.history).Nodup ∧
      PhaseOnce (writtenShares state.history) state.phase)
    (fresh : NewTemplate world state event)
    (stepped : step world config state event = some next) :
    (writtenShares next.history).Nodup ∧ PhaseOnce (writtenShares next.history) next.phase := by
  obtain ⟨unique, holds⟩ := once
  cases step_cases stepped with
  | jobPushed job valid => exact ⟨unique, holds⟩
  | connectionLost => exact ⟨unique, holds⟩
  | jobRequestFailed before phase =>
    rw [phase] at holds
    exact ⟨unique, holds⟩
  | templateReceived before template phase valid =>
    rw [phase] at holds
    exact ⟨unique, holds⟩
  | pushPreferred before template pushed phase newer =>
    rw [phase] at holds
    refine ⟨unique, acquired_once before pushed holds fun started prePow header => ?_⟩
    obtain ⟨locals, rfl⟩ := Option.isSome_iff_exists.mp started
    exact fresh prePow (by simp only [takenOver, phase, newer, Option.bind_some, header,
      Option.mem_some])
  | templatePreferred before template phase older =>
    rw [phase] at holds
    exact ⟨unique, holds⟩
  | templatePublished before template phase =>
    rw [phase] at holds
    refine ⟨unique, acquired_once before template holds fun started prePow header => ?_⟩
    obtain ⟨locals, rfl⟩ := Option.isSome_iff_exists.mp started
    exact fresh prePow (by simp only [takenOver, phase, Option.bind_some, header,
      Option.mem_some])
  | disconnected before phase =>
    rw [phase] at holds
    exact ⟨unique, holds⟩
  | connectFailed before phase =>
    rw [phase] at holds
    exact ⟨unique, holds⟩
  | reconnected before phase =>
    rw [phase] at holds
    exact ⟨unique, holds⟩
  | loginFailed before phase =>
    rw [phase] at holds
    exact ⟨unique, holds⟩
  | loggedIn before phase =>
    rw [phase] at holds
    exact ⟨unique, holds⟩
  | jobRead job phase =>
    rw [phase] at holds
    exact ⟨unique, start_up_once job _ holds⟩
  | connectionRead locals phase =>
    rw [phase] at holds
    exact ⟨unique, holds⟩
  | loopEntered locals phase =>
    rw [phase] at holds
    refine ⟨unique, ?_⟩
    unfold enterLoop
    split
    · exact holds
    · trivial
  | jobChanged locals solve phase ready =>
    rw [phase] at holds
    exact ⟨unique, holds⟩
  | jobChannelClosed locals solve phase listening =>
    rw [phase] at holds
    exact ⟨unique, holds⟩
  | connectionChanged locals solve phase ready =>
    rw [phase] at holds
    exact ⟨unique, holds⟩
  | connectionChannelClosed locals solve phase listening =>
    rw [phase] at holds
    exact ⟨unique, holds⟩
  | solved locals solve result phase =>
    rw [phase] at holds
    exact ⟨unique, after_solve_once solve result holds⟩
  | solverPanicked locals solve phase => exact ⟨unique, trivial⟩
  | recovered locals phase =>
    rw [phase] at holds
    exact ⟨unique, advance_once (Below.upTo holds)⟩
  | recoveryPanicked locals phase => exact ⟨unique, trivial⟩
  | connectionStands locals keys outcome phase connected =>
    rw [phase] at holds
    exact ⟨unique, holds⟩
  | connectionGone locals keys outcome phase lost =>
    exact ⟨unique, fun absent => nomatch absent⟩
  | jobExamined locals keys outcome phase =>
    rw [phase] at holds
    refine ⟨unique, ?_⟩
    unfold examine
    split
    · rename_i job stale
      exact take_over_once job fun prePow header =>
        fresh prePow (by simp only [takenOver, phase, stale, Option.bind_some, header,
          Option.mem_some])
    · exact use_outcome_once keys outcome holds
  | submitWritten locals share phase =>
    rw [phase] at holds
    obtain ⟨below, nonce⟩ := holds
    rw [written_shares_written]
    refine ⟨List.nodup_cons.mpr ⟨fun repeated => ?_, unique⟩, fun entry member same => ?_⟩
    · have smaller := below _ repeated rfl
      rw [nonce] at smaller
      exact Nat.lt_irrefl _ smaller
    · rcases List.mem_cons.mp member with rfl | earlier
      · exact Nat.le_of_eq (congrArg BitVec.toNat nonce)
      · exact below.upTo entry earlier same
  | submitAnswered locals share answer phase =>
    rw [phase] at holds
    refine ⟨unique, ?_⟩
    unfold afterSubmit
    split
    · exact advance_once holds
    · split
      · exact advance_once holds
      · trivial
  | submitFailed locals share written phase =>
    exact ⟨unique, fun absent => nomatch absent⟩

/-- In a run that starts over only with templates for which no share was written yet, whatever
    the node, the solver and the connection do, no two written shares have the same template,
    nonce and proof. What the node makes of a share, and whether it ever arrives, is left out: a
    share counts as written once its frame was handed to the connection. -/
theorem new_templates_send_once (world : World) (config : MineConfig) (events : List Event)
    (state : State world) (ran : mine world config events = some state)
    (fresh : Runs.Meets (step world config) (NewTemplate world) (start world config) events) :
    (writtenShares state.history).Nodup := by
  have initial : (writtenShares (start world config).history).Nodup ∧
      PhaseOnce (writtenShares (start world config).history) (start world config).phase := by
    refine ⟨List.nodup_nil, ?_⟩
    unfold start
    simp only
    split
    · trivial
    · exact fun _ => rfl
  exact (Runs.run_meets_invariant
    (fun state : State world => (writtenShares state.history).Nodup ∧
      PhaseOnce (writtenShares state.history) state.phase)
    step_once initial fresh ran).1

/-- A run in which the connection is lost during a submission, and the node hands out
    another job after the reconnect. -/
def c18OtherJob : List Event :=
  c18Submission ++ [.submitWritten, .connectionLost, .submitFailed, .disconnected, .reconnected,
    .loggedIn, .templateReceived ⟨11, 0, 1, "01"⟩, .templateCompared, .templatePublished,
    .loopEntered]

/-- The run starts over with a new template, and its share was sent once. -/
theorem c18_other_job_sends_once :
    ∃ state, mine c18World c18Config c18OtherJob = some state ∧
      writtenShares state.history = [⟨[0], 69, c18Proof⟩] ∧
      (writtenShares state.history).Nodup := by
  have reached : (mine c18World c18Config c18OtherJob).map
      (fun state => writtenShares state.history) = some [⟨[0], 69, c18Proof⟩] := by
    decide +kernel
  obtain ⟨state, ran, shares⟩ := Option.map_eq_some_iff.mp reached
  exact ⟨state, ran, shares, new_templates_send_once c18World c18Config c18OtherJob state ran
    (by decide +kernel)⟩

/-- A run in which the connection is lost during a submission, and the node hands out
    the same job after the reconnect. -/
def c18SameJob : List Event :=
  c18Submission ++ [.submitWritten, .connectionLost, .submitFailed, .disconnected, .reconnected,
    .loggedIn, .templateReceived c18Job, .templateCompared, .templatePublished, .loopEntered,
    .solved (.ok (.proof ⟨c18Proof⟩)), .connectionChecked, .jobExamined, .submitWritten]

/-- A deterministic solver does not keep a share from being sent twice: after the
    reconnect the loop starts the same job over, finds the same proof and sends it. -/
theorem same_job_sends_twice :
    ¬ ∀ (world : World) (config : MineConfig) (events : List Event) (state : State world)
      (solver : SolveRequest → Except SolveError SolveOutcome),
      mine world config events = some state → AnsweredBy solver state.history →
        (writtenShares state.history).Nodup := by
  intro claimed
  have reached : (mine c18World c18Config c18SameJob).map
      (fun state => state.history) = some [.written [0] ⟨18, 10, 0, 69, c18Proof⟩,
        .solved ⟨[0], 69, true, 18, 42, 128⟩ (.ok (.proof ⟨c18Proof⟩)), .received c18Job,
        .written [0] ⟨18, 10, 0, 69, c18Proof⟩,
        .solved ⟨[0], 69, true, 18, 42, 128⟩ (.ok (.proof ⟨c18Proof⟩)), .received c18Job] := by
    decide +kernel
  obtain ⟨state, ran, history⟩ := Option.map_eq_some_iff.mp reached
  have unique := claimed c18World c18Config c18SameJob state (fun _ => .ok (.proof ⟨c18Proof⟩)) ran
    (by
      rw [history]
      intro observation member request result same
      simp only [List.mem_cons, List.not_mem_nil, or_false] at member
      rcases member with rfl | rfl | rfl | rfl | rfl | rfl <;> cases same <;> rfl)
  rw [history] at unique
  exact absurd unique (by decide +kernel)

end CuckatooMiner.Coordinator
