import Mathlib
import CuckatooMiner.CoordinatorOnce
import CuckatooMiner.Stratum
import CuckatooMiner.CpuLean
import CuckatooMiner.GpuVerdict

/-!
# Accepted jobs and valid requests

A job is accepted when its header can be decoded, by the reader that publishes it and
by `get_job`. The request that the loop makes of it is validated by the backend, and a
refusal ends the loop. The two checks differ in one header: the empty text decodes to
no bytes, which no backend takes. As long as the node hands out no such job, every
request passes and the loop never fails to decode a header.
-/

namespace CuckatooMiner.JobValidation

open Verify Solver Coordinator
open CpuLean (CpuLeanSolver)

/-! ## Headers -/

/-- What is used of the decoder of hexadecimal texts: two characters make a byte. -/
def HexDecoding (decodeHex : String → Option (List UInt8)) : Prop :=
  ∀ text bytes, decodeHex text = some bytes → text.length = 2 * bytes.length

/-- A decoded header is empty exactly if its text is. -/
theorem decoded_empty_iff (decodeHex : String → Option (List UInt8))
    (hex : HexDecoding decodeHex) (text : String) (bytes : List UInt8)
    (decoded : decodeHex text = some bytes) : bytes = [] ↔ text = "" := by
  have length := hex text bytes decoded
  rw [← List.length_eq_zero_iff, ← String.length_eq_zero_iff]
  omega

/-- The number of a hexadecimal digit. -/
def hexDigit (digit : Char) : Option Nat :=
  if '0' ≤ digit ∧ digit ≤ '9' then some (digit.toNat - 48)
  else if 'a' ≤ digit ∧ digit ≤ 'f' then some (digit.toNat - 87)
  else if 'A' ≤ digit ∧ digit ≤ 'F' then some (digit.toNat - 55)
  else none

/-- The bytes that pairs of digits spell. -/
def decodeDigits : List Char → Option (List UInt8)
  | [] => some []
  | [_] => none
  | high :: low :: rest => do
      let high ← hexDigit high
      let low ← hexDigit low
      let bytes ← decodeDigits rest
      some (UInt8.ofNat (16 * high + low) :: bytes)

/-- Pairs of digits make bytes. -/
theorem decode_digits_length (digits : List Char) (bytes : List UInt8)
    (decoded : decodeDigits digits = some bytes) : digits.length = 2 * bytes.length := by
  induction digits using decodeDigits.induct generalizing bytes with
  | case1 =>
    cases decoded
    rfl
  | case2 => cases decoded
  | case3 high low rest ih =>
    simp only [decodeDigits, Option.bind_eq_bind, Option.bind_eq_some_iff] at decoded
    obtain ⟨_, _, _, _, later, rest_decoded, same⟩ := decoded
    cases same
    have length := ih later rest_decoded
    simp only [List.length_cons]
    omega

/-! ## Backends -/

/-- The backends that the program can start. -/
inductive Backend
  | cpu (solver : CpuLeanSolver)
  | gpuWgpu
  | gpuMetal

/-- What a backend can solve. -/
def Backend.capabilities : Backend → BackendCapabilities
  | .cpu solver => solver.capabilities
  | .gpuWgpu => GpuVerdict.capabilities
  | .gpuMetal => ⟨18, 32, 42⟩

/-- Whether a backend supports a size of the graph, which is at most thirty-two bits. -/
def Backend.Supports (backend : Backend) (edgeBits : Nat) : Prop :=
  backend.capabilities.minEdgeBits ≤ edgeBits ∧ edgeBits ≤ backend.capabilities.maxEdgeBits ∧
    edgeBits ≤ 32

/-- Whether a solver answers a request that it does not take with the refusal. -/
def Validates (capabilities : BackendCapabilities)
    (solver : SolveRequest → Except SolveError SolveOutcome) : Prop :=
  ∀ request error, validateRequest request capabilities = .error error →
    solver request = .error error

/-- The processor validates its requests. -/
theorem cpu_lean_validates (solver : CpuLeanSolver) (blake2b : List UInt8 → Digest)
    (cancel : Nat → Bool) :
    Validates solver.capabilities fun request => solver.solve blake2b request cancel := by
  intro request error refused
  simp only [CpuLeanSolver.solve, refused]
  rfl

/-- Every backend is for cycles of length forty-two, and for graphs of some bits. -/
theorem backend_limits (backend : Backend) :
    backend.capabilities.cycleLength = 42 ∧ 1 ≤ backend.capabilities.minEdgeBits := by
  cases backend with
  | cpu solver => exact ⟨rfl, Nat.le_refl 1⟩
  | gpuWgpu => exact ⟨rfl, Nat.le_refl 1⟩
  | gpuMetal => exact ⟨rfl, by decide⟩

section

variable {config : MineConfig} {backend : Backend}

/-- A request of a supported configuration is refused only for an empty header. -/
theorem request_valid_iff (length : config.cycleLength = 42) (rounds : 1 ≤ config.rounds)
    (supported : backend.Supports config.edgeBits) (locals : Locals) :
    validateRequest (requestFor config locals) backend.capabilities = .ok () ↔
      locals.prePow ≠ [] := by
  obtain ⟨cycle, least⟩ := backend_limits backend
  obtain ⟨above, below, bits⟩ := supported
  rw [validate_request_iff]
  constructor
  · intro valid
    exact valid.header
  · intro header
    exact ⟨header, ⟨Nat.le_trans least above, bits⟩, ⟨above, below⟩,
      by simp only [requestFor, length]; decide, fun _ => length.trans cycle.symm, rounds⟩

end

/-! ## Runs -/

/-- Whether the node hands out a job at this event, then one with a header. -/
def FilledHeader : Event → Prop
  | .jobPushed job | .templateReceived job => job.prePow ≠ ""
  | _ => True

/-- No job has harmed the loop: no header has failed to decode, and every request that
    a solver has answered or is working on passes the validation. -/
structure Unharmed (capabilities : BackendCapabilities) {world : World} (state : State world) :
    Prop where
  decoded : state.phase ≠ .finished (.error "job contains invalid pre_pow hex")
  answered : ∀ request result, Observation.solved request result ∈ state.history →
    validateRequest request capabilities = .ok ()
  running : ∀ locals solve, state.phase = .solving locals solve →
    validateRequest solve.request capabilities = .ok ()

section

variable {world : World} {config : MineConfig}

/-- The received jobs have headers, and the answered requests are made of them. It speaks of all
    jobs that were received, also of those that were never current. -/
structure Filled (world : World) (config : MineConfig) (state : State world) : Prop where
  sound : Sound world config state
  usable : ∀ job, Observation.received job ∈ state.history →
    (world.decodeHex job.prePow).isSome ∧ job.prePow ≠ ""
  decoded : state.phase ≠ .finished (.error "job contains invalid pre_pow hex")
  requested : ∀ request result, Observation.solved request result ∈ state.history →
    ∃ locals job, request = requestFor config locals ∧ Observation.received job ∈ state.history ∧
      world.decodeHex job.prePow = some locals.prePow

/-- A message that begins with another letter is not that of a failed decoding. -/
theorem other_message (start rest : String) (letter : Char) (later : List Char)
    (begins : start.toList = letter :: later) (other : letter ≠ 'j') :
    Phase.finished (.error (start ++ rest)) ≠
      .finished (.error "job contains invalid pre_pow hex") := by
  intro same
  have texts := congrArg String.toList (Except.error.inj (Phase.finished.inj same))
  rw [String.toList_append, begins] at texts
  exact other (List.cons.inj texts).1

/-- Taking over a job that can be decoded does not fail to decode. -/
theorem take_over_decoded (locals : Locals) (job : Job)
    (usable : (world.decodeHex job.prePow).isSome) :
    takeOver world config locals job ≠ .finished (.error "job contains invalid pre_pow hex") := by
  obtain ⟨bytes, decoded⟩ := Option.isSome_iff_exists.mp usable
  rw [takeOver, decoded]
  nofun

/-- Neither does acquiring it. -/
theorem acquired_decoded (before : Option Locals) (job : Job)
    (usable : (world.decodeHex job.prePow).isSome) :
    acquired world config before job ≠ .finished (.error "job contains invalid pre_pow hex") := by
  cases before with
  | none => nofun
  | some locals => exact take_over_decoded locals job usable

/-- Neither does the start with a requested job or the latest one. -/
theorem start_up_decoded (job : Job) (latest : Option Job)
    (usable : (world.decodeHex job.prePow).isSome)
    (channel : ∀ pushed, latest = some pushed → (world.decodeHex pushed.prePow).isSome) :
    startUp world config job latest ≠ .finished (.error "job contains invalid pre_pow hex") := by
  have chosen : (world.decodeHex ((staleAgainst job latest).getD job).prePow).isSome := by
    cases stale : staleAgainst job latest with
    | none => exact usable
    | some pushed => exact channel pushed (Option.eq_some_of_filter_eq_some stale)
  obtain ⟨bytes, decoded⟩ := Option.isSome_iff_exists.mp chosen
  rw [startUp]
  simp only [decoded]
  nofun

/-- Going on with the next nonce does not decode. -/
theorem advance_decoded (locals : Locals) :
    advance locals ≠ .finished (.error "job contains invalid pre_pow hex") := by
  unfold advance
  split
  · simp
  · nofun

/-- Neither does the use of an outcome. -/
theorem use_outcome_decoded (locals : Locals) (keys : SipHash.SipKeys) (outcome : SolveOutcome) :
    useOutcome world config locals keys outcome ≠
      .finished (.error "job contains invalid pre_pow hex") := by
  unfold useOutcome
  split
  · split
    · simp
    · simp only
      split
      · nofun
      · exact advance_decoded locals
  · exact advance_decoded locals
  · nofun
  · exact advance_decoded locals

/-- A step fails to decode a header only if it takes over a job without a header that
    can be decoded. -/
theorem step_decoded (state : State world) (event : Event) (next : State world)
    (sound : Sound world config state)
    (usable : ∀ job, Observation.received job ∈ state.history →
      (world.decodeHex job.prePow).isSome)
    (decoded : state.phase ≠ .finished (.error "job contains invalid pre_pow hex"))
    (stepped : step world config state event = some next) :
    next.phase ≠ .finished (.error "job contains invalid pre_pow hex") := by
  have holds := sound.phase
  have channel : ∀ job, world.jobs.borrow state.jobs = some job →
      (world.decodeHex job.prePow).isSome := fun job latest =>
    usable job (sound.channel job latest)
  cases step_cases stepped with
  | jobPushed job valid => exact decoded
  | connectionLost => exact decoded
  | pushPreferred before template pushed phase newer =>
    exact acquired_decoded before pushed (channel pushed (Option.eq_some_of_filter_eq_some newer))
  | templatePublished before template phase =>
    rw [phase] at holds
    exact acquired_decoded before template (usable template holds)
  | jobRead job phase =>
    rw [phase] at holds
    exact start_up_decoded job _ (usable job holds) channel
  | loopEntered locals phase =>
    simp only [enterLoop]
    split
    · nofun
    · simp
  | solved locals solve result phase =>
    simp only [afterSolve]
    split
    · nofun
    · split
      · simp
      · nofun
    · exact other_message "solving nonce " _ _ _ rfl (by decide)
  | solverPanicked locals solve phase => simp
  | recovered locals phase => exact advance_decoded locals
  | recoveryPanicked locals phase => simp
  | jobExamined locals keys outcome phase =>
    simp only [examine]
    split
    · rename_i job stale
      exact take_over_decoded locals job (channel job (Option.eq_some_of_filter_eq_some stale))
    · exact use_outcome_decoded locals keys outcome
  | submitAnswered locals share answer phase =>
    simp only [afterSubmit]
    split
    · exact advance_decoded locals
    · split
      · exact advance_decoded locals
      · rw [String.append_assoc, String.append_assoc]
        exact other_message "verified share rejected with code " _ _ _ rfl (by decide)
  | _ => nofun

/-- A step observes a received job only if the node has handed it out, with a header
    that can be decoded. -/
theorem step_received (state : State world) (event : Event) (next : State world)
    (filled : FilledHeader event) (stepped : step world config state event = some next)
    (job : Job) (received : Observation.received job ∈ next.history) :
    Observation.received job ∈ state.history ∨
      ((world.decodeHex job.prePow).isSome ∧ job.prePow ≠ "") := by
  cases step_cases stepped with
  | jobPushed pushed valid =>
    rcases List.mem_cons.mp received with latest | earlier
    · cases latest
      exact Or.inr ⟨valid, filled⟩
    · exact Or.inl earlier
  | templateReceived before template phase valid =>
    rcases List.mem_cons.mp received with latest | earlier
    · cases latest
      exact Or.inr ⟨valid, filled⟩
    · exact Or.inl earlier
  | solved locals solve result phase =>
    rcases List.mem_cons.mp received with latest | earlier
    · cases latest
    · exact Or.inl earlier
  | submitWritten locals share phase =>
    rcases List.mem_cons.mp received with latest | earlier
    · cases latest
    · exact Or.inl earlier
  | _ => exact Or.inl received

/-- A step observes an answer only to the request of the running solve. -/
theorem step_answered (state : State world) (event : Event) (next : State world)
    (stepped : step world config state event = some next) (request : SolveRequest)
    (result : Except SolveError SolveOutcome)
    (answered : Observation.solved request result ∈ next.history) :
    Observation.solved request result ∈ state.history ∨
      ∃ locals solve, state.phase = .solving locals solve ∧ request = solve.request := by
  cases step_cases stepped with
  | solved locals solve outcome phase =>
    rcases List.mem_cons.mp answered with latest | earlier
    · cases latest
      exact Or.inr ⟨locals, solve, phase, rfl⟩
    · exact Or.inl earlier
  | jobPushed pushed valid =>
    rcases List.mem_cons.mp answered with latest | earlier
    · cases latest
    · exact Or.inl earlier
  | templateReceived before template phase valid =>
    rcases List.mem_cons.mp answered with latest | earlier
    · cases latest
    · exact Or.inl earlier
  | submitWritten locals share phase =>
    rcases List.mem_cons.mp answered with latest | earlier
    · cases latest
    · exact Or.inl earlier
  | _ => exact Or.inl answered

/-- The observations of a step come on top of the earlier ones. -/
theorem step_history (state : State world) (event : Event) (next : State world)
    (stepped : step world config state event = some next) (observation : Observation)
    (earlier : observation ∈ state.history) : observation ∈ next.history := by
  cases step_cases stepped with
  | jobPushed job valid => exact List.mem_cons_of_mem _ earlier
  | templateReceived before template phase valid => exact List.mem_cons_of_mem _ earlier
  | solved locals solve result phase => exact List.mem_cons_of_mem _ earlier
  | submitWritten locals share phase => exact List.mem_cons_of_mem _ earlier
  | _ => exact earlier

/-- A running solve is for a received job. -/
theorem solving_received (state : State world) (sound : Sound world config state)
    (locals : Locals) (solve : Solve) (solving : state.phase = .solving locals solve) :
    ∃ locals job, solve.request = requestFor config locals ∧
      Observation.received job ∈ state.history ∧
      world.decodeHex job.prePow = some locals.prePow := by
  have holds := sound.phase
  rw [solving] at holds
  obtain ⟨⟨received, header⟩, request, _⟩ := holds
  exact ⟨locals, locals.currentJob, request, received, header⟩

/-- Every step on which no empty header is handed out keeps the received jobs filled. -/
theorem step_filled (length : config.cycleLength = 42) (state : State world) (event : Event)
    (next : State world) (filled : Filled world config state) (header : FilledHeader event)
    (stepped : step world config state event = some next) : Filled world config next := by
  obtain ⟨sound, usable, decoded, requested⟩ := filled
  refine ⟨step_sound length state event next sound stepped, fun job received => ?_,
    step_decoded state event next sound (fun job received => (usable job received).1) decoded
      stepped, fun request result answered => ?_⟩
  · rcases step_received state event next header stepped job received with earlier | new
    · exact usable job earlier
    · exact new
  · have kept := step_history state event next stepped
    rcases step_answered state event next stepped request result answered with
      earlier | ⟨locals, solve, solving, rfl⟩
    · obtain ⟨locals, job, same, received, header⟩ := requested request result earlier
      exact ⟨locals, job, same, kept _ received, header⟩
    · obtain ⟨locals, job, same, received, header⟩ := solving_received state sound locals solve
        solving
      exact ⟨locals, job, same, kept _ received, header⟩

/-- A run without empty headers reaches only filled states. -/
theorem run_filled (length : config.cycleLength = 42) (events : List Event) (state : State world)
    (ran : mine world config events = some state)
    (headers : Runs.Meets (step world config) (fun _ event => FilledHeader event)
      (start world config) events) : Filled world config state := by
  refine Runs.run_meets_invariant (Filled world config) (step_filled length) ?_ headers ran
  have phase : (start world config).phase = .requesting none := by
    simp only [start, length, ne_eq, not_true_eq_false, if_false]
  refine ⟨⟨?_, fun job latest => ?_⟩, fun job member => ?_, ?_, fun request result member => ?_⟩
  · rw [phase]
    trivial
  · rw [start, world.jobs.borrow_channel] at latest
    cases latest
  · cases member
  · rw [phase]
    intro finished
    cases finished
  · cases member

end

/-! ## Jobs -/

/-- Whether a frame makes the client accept a job: a push that the reader publishes, or
    a response of which `get_job` returns the template. -/
def Accepts (decodeHex : String → Option (List UInt8)) (value : Stratum.Value) (job : Job) :
    Prop :=
  Stratum.action decodeHex value = .publish job ∨ Stratum.templateOf decodeHex value = some job

/-- An accepted job has a header that can be decoded. -/
theorem accepted_decoded (decodeHex : String → Option (List UInt8)) (value : Stratum.Value)
    (job : Job) (accepted : Accepts decodeHex value job) :
    (decodeHex job.prePow).isSome := by
  rcases accepted with published | returned
  · unfold Stratum.action at published
    split at published
    · split at published
      · rename_i pushed usable
        cases published
        exact (Option.filter_eq_some_iff.mp usable).2
      · cases published
    · split at published <;> cases published
  · unfold Stratum.templateOf at returned
    split at returned
    · cases returned
    · exact (Option.filter_eq_some_iff.mp returned).2

/-- On a supported configuration the request of an accepted job is valid if and only if the
    job's header is not the empty text, and the loop can always decode the header. In every run
    in which the node hands out no empty header, no job harms the loop. Of the decoder of
    hexadecimal texts only the number of its bytes is used, and nothing is assumed of the
    solver. -/
theorem accepted_jobs_harmless_iff (world : World) (config : MineConfig) (backend : Backend)
    (hex : HexDecoding world.decodeHex) (length : config.cycleLength = 42)
    (rounds : 1 ≤ config.rounds) (supported : backend.Supports config.edgeBits) :
    (∀ value job, Accepts world.decodeHex value job → ∃ prePow,
      world.decodeHex job.prePow = some prePow ∧
      ∀ nonce graphs errors,
        validateRequest (requestFor config ⟨job, prePow, nonce, graphs, errors⟩)
          backend.capabilities = .ok () ↔ job.prePow ≠ "") ∧
      ∀ events (state : State world), mine world config events = some state →
        Runs.Meets (step world config) (fun _ event => FilledHeader event) (start world config)
          events →
        Unharmed backend.capabilities state := by
  constructor
  · intro value job accepted
    obtain ⟨prePow, decoded⟩ := Option.isSome_iff_exists.mp
      (accepted_decoded world.decodeHex value job accepted)
    refine ⟨prePow, decoded, fun nonce graphs errors => ?_⟩
    rw [request_valid_iff length rounds supported, ne_eq,
      decoded_empty_iff world.decodeHex hex job.prePow prePow decoded]
  · intro events state ran headers
    obtain ⟨sound, usable, decoded, requested⟩ := run_filled length events state ran headers
    -- A request that is made of a received job has that job's header.
    have valid : ∀ (locals : Locals) (job : Job), Observation.received job ∈ state.history →
        world.decodeHex job.prePow = some locals.prePow →
        validateRequest (requestFor config locals) backend.capabilities = .ok () := by
      intro locals job received header
      rw [request_valid_iff length rounds supported, ne_eq,
        decoded_empty_iff world.decodeHex hex job.prePow locals.prePow header]
      exact (usable job received).2
    refine ⟨decoded, fun request result answered => ?_, fun locals solve solving => ?_⟩
    · obtain ⟨locals, job, rfl, received, header⟩ := requested request result answered
      exact valid locals job received header
    · obtain ⟨locals, job, same, received, header⟩ := solving_received state sound locals solve
        solving
      rw [same]
      exact valid locals job received header

/-- A world that decodes hexadecimal texts. -/
def hexWorld : World where
  blake2b _ := Vector.replicate 32 0
  decodeHex text := decodeDigits text.toList
  jobs := WatchChannel.versioned (Option Job)
  connection := WatchChannel.versioned Bool

/-- Its decoder makes a byte of two characters. -/
theorem hex_world_decoding : HexDecoding hexWorld.decodeHex := fun text bytes decoded => by
  rw [← String.length_toList]
  exact decode_digits_length text.toList bytes decoded

/-- A response with a template. -/
def templateResponse (prePow : String) : Stratum.Value :=
  .object [("id", .string "1"), ("method", .string "getjobtemplate"),
    ("result", .object [("height", .unsigned 10), ("job_id", .unsigned 0),
      ("difficulty", .unsigned 1), ("pre_pow", .string prePow)])]

/-- A run from start-up to the first solve for a template. -/
def firstSolve (prePow : String) : List Event :=
  [.templateReceived ⟨10, 0, 1, prePow⟩, .templateCompared, .templatePublished, .jobRead,
    .connectionRead, .loopEntered]

/-- A header of one zero byte is accepted and solved. -/
theorem zero_header_harmless :
    (∃ prePow, hexWorld.decodeHex "00" = some prePow ∧ ∀ nonce graphs errors,
      validateRequest (requestFor c18Config ⟨⟨10, 0, 1, "00"⟩, prePow, nonce, graphs, errors⟩)
        Backend.gpuWgpu.capabilities = .ok () ↔ "00" ≠ "") ∧
      ∃ state, mine hexWorld c18Config (firstSolve "00") = some state ∧
        Unharmed Backend.gpuWgpu.capabilities state := by
  have harmless := accepted_jobs_harmless_iff hexWorld c18Config .gpuWgpu hex_world_decoding rfl
    (by decide) ⟨by decide, by decide, by decide⟩
  refine ⟨harmless.1 (templateResponse "00") ⟨10, 0, 1, "00"⟩ (Or.inr rfl), ?_⟩
  have reached : (mine hexWorld c18Config (firstSolve "00")).isSome := by decide +kernel
  obtain ⟨state, ran⟩ := Option.isSome_iff_exists.mp reached
  refine ⟨state, ran, harmless.2 _ state ran ?_⟩
  have filled : FilledHeader (.templateReceived ⟨10, 0, 1, "00"⟩) := by simp [FilledHeader]
  exact ⟨filled, fun _ _ => ⟨trivial, fun _ _ => ⟨trivial, fun _ _ => ⟨trivial, fun _ _ =>
    ⟨trivial, fun _ _ => ⟨trivial, fun _ _ => trivial⟩⟩⟩⟩⟩⟩

/-- What the loop has returned. -/
def Phase.returned : Phase → Option (Except String Unit)
  | .finished result => some result
  | _ => none

/-- A run in which the node hands out an empty header, and the solver refuses the
    request that the loop makes of it. -/
def emptyHeader : List Event :=
  firstSolve "" ++ [.solved (.error (.invalidConfig "pre_pow must not be empty"))]

/-- A template with an empty header is accepted, and it ends the loop with an error: the
    solver answers its request with the refusal of the validation. -/
theorem empty_header_aborts :
    Stratum.templateOf hexWorld.decodeHex (templateResponse "") = some ⟨10, 0, 1, ""⟩ ∧
      ∃ state, mine hexWorld c18Config emptyHeader = some state ∧
        AnsweredBy (fun request => CpuLeanSolver.default.solve hexWorld.blake2b request
          fun _ => false) state.history ∧
        Phase.returned state.phase = some (.error "solving nonce 69") ∧
        ¬ Unharmed (Backend.cpu .default).capabilities state := by
  have reached : (mine hexWorld c18Config emptyHeader).map
      (fun state => (Phase.returned state.phase, state.history)) =
        some (some (.error "solving nonce 69"),
          [.solved ⟨[], 69, true, 18, 42, 128⟩
            (.error (.invalidConfig "pre_pow must not be empty")),
          .received ⟨10, 0, 1, ""⟩]) := by
    rfl
  obtain ⟨state, ran, same⟩ := Option.map_eq_some_iff.mp reached
  obtain ⟨returned, history⟩ := Prod.mk.inj same
  refine ⟨rfl, state, ran, ?_, returned, fun unharmed => ?_⟩
  · rw [history]
    intro observation member request result same
    simp only [List.mem_cons, List.not_mem_nil, or_false] at member
    rcases member with rfl | rfl
    · cases same
      exact (cpu_lean_validates _ _ _ _ _ rfl).symm
    · cases same
  · have accepted := unharmed.answered _ _ (by rw [history]; exact List.mem_cons_self)
    cases accepted

end CuckatooMiner.JobValidation
