import Mathlib
import CuckatooMiner.StratumRequests

/-!
# The job channel

`get_job` asks for a template, looks at the job channel, and returns the job that it
finds there if it is higher; otherwise it puts the template into the channel and returns
that. The look and the replacement are two steps, and the reader publishes pushes at any
time, so a push that comes between them is lost. What the look finds can also hide a
higher push that was followed by a lower one. Where neither happens, no push that is
higher than the template is ever replaced by it.

The channel outlives the connection. What a look finds may therefore come from an
earlier connection, and a higher job from there is returned as if it were current. Where
no such job is found, every job that is returned was received on the current connection.
-/

namespace CuckatooMiner.Stratum

open Coordinator (Job newerThan)

/-! ## Where jobs come from -/

section Origins

variable (decodeHex : String → Option (List UInt8))

/-- A job is the one of a push or of a response. -/
def Carries (frame : Frame) (job : Job) : Prop :=
  isJobPush frame.value = true ∧ pushedJob decodeHex frame.value = some job ∨
    templateOf decodeHex frame.value = some job

instance (frame : Frame) (job : Job) : Decidable (Carries decodeHex frame job) :=
  inferInstanceAs (Decidable (_ = _ ∧ _ = _ ∨ _ = _))

/-- A job was received on a connection, as a push or as a response. Whether it was ever
    published is another matter. -/
def Received (state : State) (connection : Nat) (job : Job) : Prop :=
  ∃ frame ∈ state.frames, frame.connection = connection ∧ Carries decodeHex frame job

instance (state : State) (connection : Nat) (job : Job) :
    Decidable (Received decodeHex state connection job) :=
  inferInstanceAs (Decidable (∃ frame ∈ state.frames, _ = connection ∧ Carries decodeHex _ job))

end Origins

/-- The request of a call that has not yet put its template into the channel. -/
def Phase.working : Phase → Option Nat
  | .requesting _ id _ | .comparing id _ _ | .publishing id _ _ => some id
  | _ => none

/-- The frame and the template of a call that has not yet published it. -/
def Phase.template : Phase → Option (Frame × Job)
  | .comparing _ frame template | .publishing _ frame template => some (frame, template)
  | _ => none

/-- The template that is compared next. -/
def Phase.compared : Phase → Option Job
  | .comparing _ _ template => some template
  | _ => none

/-- The template that is published next. -/
def Phase.replacing : Phase → Option Job
  | .publishing _ _ template => some template
  | _ => none

/-- The job that a reader publishes next. -/
def Reader.job : Reader → Option Job
  | .publishing _ job => some job
  | _ => none

/-- The client looks at the job channel. -/
def Event.isComparison : Event → Bool
  | .client .jobCompared => true
  | _ => false

/-- The reader that publishes a job. -/
def Event.publisher : Event → Option Nat
  | .reader task .jobPublished => some task
  | _ => none

/-- The channel holds the job of the last publication, every published job was received,
    and a template that is still to be published was received on the connection. -/
structure Jobs (decodeHex : String → Option (List UInt8)) (state : State) : Prop where
  channel : state.jobs = state.publications.head?.map Publication.job
  origins : ∀ publication ∈ state.publications,
    publication.frame ∈ state.frames ∧ Carries decodeHex publication.frame publication.job
  sources : ∀ publication ∈ state.publications, ∀ id, publication.source = some id →
    id < state.nextId ∧ state.phase.working ≠ some id
  counted : ∀ id, state.phase.working = some id → id < state.nextId
  held : ∀ task frame job, state.readers task = .publishing frame job →
    Carries decodeHex frame job
  template : ∀ frame template, state.phase.template = some (frame, template) →
    frame ∈ state.frames ∧ Carries decodeHex frame template ∧ frame.connection = state.connection

section

variable {decodeHex : String → Option (List UInt8)} {state next : State} {task : Nat}

/-! ## Readers -/

/-- A reader publishes nothing, or the job that it has in hand. -/
theorem reader_publications (stepped : ReaderStep decodeHex state task next) :
    next.jobs = state.jobs ∧ next.publications = state.publications ∨
      ∃ frame job, state.readers task = .publishing frame job ∧ next.jobs = some job ∧
        next.publications = ⟨job, frame, none⟩ :: state.publications := by
  cases stepped with
  | publishes frame job point => exact Or.inr ⟨frame, job, point, rfl, rfl⟩
  | _ => exact Or.inl ⟨rfl, rfl⟩

/-- Frames that were read stay recorded. -/
theorem reader_frames_grow (stepped : ReaderStep decodeHex state task next) :
    state.frames ⊆ next.frames := by
  cases stepped with
  | reads value point => exact List.subset_cons_self _ _
  | _ => exact List.Subset.refl _

/-- A job that is acted upon is the one of the push. -/
theorem act_publishing (frame other : Frame) (job : Job)
    (publishing : Reader.act frame (action decodeHex frame.value) = .publishing other job) :
    other = frame ∧ Carries decodeHex frame job := by
  unfold action at publishing
  split at publishing
  · rename_i push
    split at publishing
    · rename_i pushed read
      obtain ⟨rfl, rfl⟩ := Reader.publishing.inj publishing
      exact ⟨rfl, Or.inl ⟨push, read⟩⟩
    · cases publishing
  · split at publishing <;> cases publishing

/-- A reader that is about to publish a job was so before, or has just read the push. -/
theorem reader_publishing (stepped : ReaderStep decodeHex state task next) (other : Nat)
    (frame : Frame) (job : Job) (publishing : next.readers other = .publishing frame job) :
    state.readers other = .publishing frame job ∨ Carries decodeHex frame job := by
  by_cases same : other = task
  · subst same
    have here : ∀ reader, Function.update state.readers other reader other = reader :=
      fun reader => Function.update_self _ _ _
    cases stepped with
    | handles held point current =>
      obtain ⟨rfl, carries⟩ := act_publishing held frame job ((here _).symm.trans publishing)
      exact Or.inr carries
    | _ => exact absurd ((here _).symm.trans publishing) nofun
  · rw [(reader_frame stepped).others other same] at publishing
    exact Or.inl publishing

/-- A step of a reader keeps the jobs in order. -/
theorem reader_keeps_jobs (frames : Frames state) (jobs : Jobs decodeHex state)
    (stepped : ReaderStep decodeHex state task next) : Jobs decodeHex next := by
  have frame := reader_frame stepped
  have grow := reader_frames_grow stepped
  have held : ∀ other frame job, next.readers other = .publishing frame job →
      Carries decodeHex frame job := by
    intro other frame job publishing
    rcases reader_publishing stepped other frame job publishing with before | carries
    · exact jobs.held other frame job before
    · exact carries
  have template : ∀ frame template, next.phase.template = some (frame, template) →
      frame ∈ next.frames ∧ Carries decodeHex frame template ∧
        frame.connection = next.connection := by
    rw [frame.phase, frame.connection]
    intro response template waiting
    obtain ⟨read, carries⟩ := jobs.template response template waiting
    exact ⟨grow read, carries⟩
  have counted : ∀ id, next.phase.working = some id → id < next.nextId := by
    rw [frame.phase, frame.nextId]
    exact jobs.counted
  rcases reader_publications stepped with ⟨sameJobs, same⟩ | ⟨push, job, point, sent, added⟩
  · refine ⟨?_, ?_, ?_, counted, held, template⟩
    · rw [sameJobs, same]
      exact jobs.channel
    · rw [same]
      intro publication member
      obtain ⟨read, carries⟩ := jobs.origins publication member
      exact ⟨grow read, carries⟩
    · rw [same, frame.nextId, frame.phase]
      exact jobs.sources
  · refine ⟨?_, ?_, ?_, counted, held, template⟩
    · rw [sent, added]
      rfl
    · rw [added]
      intro publication member
      rcases List.mem_cons.mp member with rfl | earlier
      · exact ⟨grow (frames.held task push (by rw [point]; rfl)).1, jobs.held task push job point⟩
      · obtain ⟨read, carries⟩ := jobs.origins publication earlier
        exact ⟨grow read, carries⟩
    · rw [added, frame.nextId, frame.phase]
      intro publication member id source
      rcases List.mem_cons.mp member with rfl | earlier
      · cases source
      · exact jobs.sources publication earlier id source

/-! ## The client -/

/-- A step of the client that puts nothing into the channel keeps the jobs in order. -/
theorem quiet_keeps_jobs (jobs : Jobs decodeHex state) (sameJobs : next.jobs = state.jobs)
    (same : next.publications = state.publications) (sameFrames : next.frames = state.frames)
    (later : state.nextId ≤ next.nextId)
    (working : ∀ id, next.phase.working = some id →
      state.phase.working = some id ∨ state.nextId ≤ id ∧ id < next.nextId)
    (held : ∀ task frame job, next.readers task = .publishing frame job →
      state.readers task = .publishing frame job)
    (template : ∀ frame template, next.phase.template = some (frame, template) →
      frame ∈ state.frames ∧ Carries decodeHex frame template ∧
        frame.connection = next.connection) : Jobs decodeHex next := by
  refine ⟨?_, ?_, ?_, ?_, ?_, ?_⟩
  · rw [sameJobs, same]
    exact jobs.channel
  · rw [same, sameFrames]
    exact jobs.origins
  · rw [same]
    intro publication member id source
    obtain ⟨counted, elsewhere⟩ := jobs.sources publication member id source
    refine ⟨Nat.lt_of_lt_of_le counted later, fun working_now => ?_⟩
    rcases working id working_now with before | new
    · exact elsewhere before
    · exact absurd counted (Nat.not_lt.mpr new.1)
  · intro id working_now
    rcases working id working_now with before | new
    · exact Nat.lt_of_lt_of_le (jobs.counted id before) later
    · exact new.2
  · exact fun task frame job publishing =>
      jobs.held task frame job (held task frame job publishing)
  · rw [sameFrames]
    exact template

/-- A request that returns a template got it in a frame of the connection. -/
theorem after_request_template (frames : Frames state) (requests : Requests state) {call : Call}
    {id : Nat} {stage : Stage} (phase : state.phase = .requesting call id stage)
    (result : Option Frame) (got : ∀ frame, result = some frame → state.cells id = .filled frame)
    (frame : Frame) (template : Job)
    (waiting : (afterRequest decodeHex call id result).template = some (frame, template)) :
    frame ∈ state.frames ∧ Carries decodeHex frame template ∧
      frame.connection = state.connection := by
  unfold afterRequest at waiting
  split at waiting
  · split at waiting <;> cases waiting
  · cases waiting
  · rename_i response
    split at waiting
    · rename_i read carried
      obtain ⟨rfl, rfl⟩ := Prod.mk.inj (Option.some.inj waiting)
      obtain ⟨delivered, connection⟩ := requests.filled id response (by rw [phase]; rfl)
        (got response rfl)
      exact ⟨(frames.delivered _ delivered).1, Or.inr carried, connection⟩
    · cases waiting
  · cases waiting
  · cases waiting

/-- The call of a request goes on with it, if at all. -/
theorem after_request_working (call : Call) (id other : Nat) (result : Option Frame)
    (working : (afterRequest decodeHex call id result).working = some other) : other = id := by
  unfold afterRequest at working
  split at working
  · split at working <;> cases working
  · cases working
  · split at working
    · exact (Option.some.inj working).symm
    · cases working
  · cases working
  · cases working

/-- The return of a request keeps the jobs in order. -/
theorem finish_keeps_jobs (frames : Frames state) (requests : Requests state)
    (jobs : Jobs decodeHex state) {call : Call} {id : Nat} {stage : Stage}
    (phase : state.phase = .requesting call id stage) (result : Option Frame)
    (got : ∀ frame, result = some frame → state.cells id = .filled frame) :
    Jobs decodeHex (state.finishRequest decodeHex call id result) := by
  refine quiet_keeps_jobs jobs rfl rfl rfl (Nat.le_refl _) ?_ (fun _ _ _ publishing => publishing) ?_
  · intro other working
    obtain rfl := after_request_working call id other result working
    exact Or.inl (by rw [phase]; rfl)
  · exact fun frame template waiting =>
      after_request_template frames requests phase result got frame template waiting

/-- A step of the client keeps the jobs in order. -/
theorem client_keeps_jobs (frames : Frames state) (requests : Requests state)
    (jobs : Jobs decodeHex state) (stepped : ClientStep decodeHex state next) :
    Jobs decodeHex next := by
  -- Steps to a phase without a request or a template.
  have leaves : ∀ {next : State}, next.jobs = state.jobs →
      next.publications = state.publications → next.frames = state.frames →
      next.nextId = state.nextId → next.readers = state.readers → next.phase.working = none →
      next.phase.template = none → Jobs decodeHex next := by
    intro next sameJobs same sameFrames sameId sameReaders idle nothing
    refine quiet_keeps_jobs jobs sameJobs same sameFrames (Nat.le_of_eq sameId.symm) ?_ ?_ ?_
    · exact fun id working => absurd (idle.symm.trans working) nofun
    · exact fun _ _ _ publishing => sameReaders ▸ publishing
    · exact fun _ _ waiting => absurd (nothing.symm.trans waiting) nofun
  -- Steps within a request.
  have requesting : ∀ {call id before after} {next : State},
      state.phase = .requesting call id before → next.phase = .requesting call id after →
      next.jobs = state.jobs → next.publications = state.publications →
      next.frames = state.frames → next.nextId = state.nextId → next.readers = state.readers →
      Jobs decodeHex next := by
    intro call id before after next phase nextPhase sameJobs same sameFrames sameId sameReaders
    refine quiet_keeps_jobs jobs sameJobs same sameFrames (Nat.le_of_eq sameId.symm) ?_ ?_ ?_
    · intro other working
      rw [nextPhase] at working
      rw [phase]
      exact Or.inl working
    · exact fun _ _ _ publishing => sameReaders ▸ publishing
    · rw [nextPhase]
      exact nofun
  -- The beginning of a request.
  have begins : ∀ {call} {next : State}, next.phase = .requesting call state.nextId .inserting →
      next.jobs = state.jobs → next.publications = state.publications →
      next.frames = state.frames → next.nextId = state.nextId + 1 →
      next.readers = state.readers → Jobs decodeHex next := by
    intro call next nextPhase sameJobs same sameFrames counted sameReaders
    refine quiet_keeps_jobs jobs sameJobs same sameFrames (by omega) ?_ ?_ ?_
    · intro other working
      rw [nextPhase] at working
      obtain rfl := Option.some.inj working
      exact Or.inr ⟨Nat.le_refl _, counted ▸ Nat.lt_succ_self _⟩
    · exact fun _ _ _ publishing => sameReaders ▸ publishing
    · rw [nextPhase]
      exact nofun
  cases stepped with
  | raises first phase => exact begins rfl rfl rfl rfl rfl rfl
  | begins call phase work => exact begins rfl rfl rfl rfl rfl rfl
  | inserts call id phase => exact requesting phase rfl rfl rfl rfl rfl rfl
  | goesOn call id before after phase stages => exact requesting phase rfl rfl rfl rfl rfl rfl
  | removes call id phase =>
    refine quiet_keeps_jobs jobs rfl rfl rfl (Nat.le_refl _) ?_
      (fun _ _ _ publishing => publishing) ?_
    · intro other working
      obtain rfl := after_request_working call id other none working
      exact Or.inl (by rw [phase]; rfl)
    · exact fun frame template waiting =>
        after_request_template frames requests phase none nofun frame template waiting
  | receives call id frame phase answered =>
    refine finish_keeps_jobs frames requests jobs phase (some frame) fun other same => ?_
    rw [answered, Option.some.inj same]
  | fails call id phase dropped =>
    exact finish_keeps_jobs frames requests jobs phase none nofun
  | prefersPush id frame template pushed phase newer => exact leaves rfl rfl rfl rfl rfl rfl rfl
  | prefersTemplate id frame template phase older =>
    refine quiet_keeps_jobs jobs rfl rfl rfl (Nat.le_refl _) ?_
      (fun _ _ _ publishing => publishing) ?_
    · intro other working
      rw [phase]
      exact Or.inl working
    · intro other waiting same
      refine jobs.template other waiting ?_
      rw [phase]
      exact same
  | publishes id frame template phase =>
    obtain ⟨read, carries, connection⟩ := jobs.template frame template (by rw [phase]; rfl)
    refine ⟨rfl, ?_, ?_, nofun, jobs.held, nofun⟩
    · intro publication member
      rcases List.mem_cons.mp member with rfl | earlier
      · exact ⟨read, carries⟩
      · exact jobs.origins publication earlier
    · intro publication member other source
      refine ⟨?_, nofun⟩
      rcases List.mem_cons.mp member with rfl | earlier
      · obtain rfl := Option.some.inj source
        exact jobs.counted id (by rw [phase]; rfl)
      · exact (jobs.sources publication earlier other source).1
  | dials phase =>
    refine quiet_keeps_jobs jobs rfl rfl rfl (Nat.le_refl _) nofun ?_ nofun
    intro task frame job publishing
    by_cases same : task = state.generation
    · subst same
      have looping := set_reader_self state state.generation .looping
      exact absurd (looping.symm.trans publishing) nofun
    · have unmoved := set_reader_other state state.generation task .looping same
      exact unmoved.symm.trans publishing
  | abandons phase => exact leaves rfl rfl rfl rfl rfl rfl rfl
  | drops task phase started => exact leaves rfl rfl rfl rfl rfl rfl rfl
  | dropsNothing phase stopped => exact leaves rfl rfl rfl rfl rfl rfl rfl
  | returns id template job phase => exact leaves rfl rfl rfl rfl rfl rfl rfl
  | retires phase => exact leaves rfl rfl rfl rfl rfl rfl rfl
  | disconnects phase => exact leaves rfl rfl rfl rfl rfl rfl rfl
  | aborts task phase started => exact leaves rfl rfl rfl rfl rfl rfl rfl
  | abortsNothing phase stopped => exact leaves rfl rfl rfl rfl rfl rfl rfl
  | joins task phase ended => exact leaves rfl rfl rfl rfl rfl rfl rfl
  | shutsDown phase => exact leaves rfl rfl rfl rfl rfl rfl rfl
  | clears phase => exact leaves rfl rfl rfl rfl rfl rfl rfl
  | dialFails phase => exact leaves rfl rfl rfl rfl rfl rfl rfl

/-- Tasks, frames, requests and jobs are in order. -/
structure Ordered (decodeHex : String → Option (List UInt8)) (state : State) : Prop where
  tasks : Tasks state
  frames : Frames state
  requests : Requests state
  jobs : Jobs decodeHex state

/-- At the start everything is in order. -/
theorem start_ordered (decodeHex : String → Option (List UInt8)) : Ordered decodeHex start := by
  have empty : client decodeHex [] = some start := rfl
  obtain ⟨tasks, frames, requests⟩ := run_requests empty
  refine ⟨tasks, frames, requests, rfl, nofun, nofun, nofun, ?_, nofun⟩
  intro task frame job publishing
  have held := (frames.held task frame (by rw [publishing]; rfl)).1
  cases held

/-- Every step keeps everything in order. -/
theorem step_ordered {event : Event} (ordered : Ordered decodeHex state)
    (stepped : step decodeHex state event = some next) : Ordered decodeHex next := by
  obtain ⟨tasks, frames, requests, jobs⟩ := ordered
  cases event with
  | client event =>
    have taken := client_step_cases stepped
    exact ⟨client_keeps_tasks tasks taken, client_keeps_frames frames taken,
      client_keeps_requests requests taken, client_keeps_jobs frames requests jobs taken⟩
  | reader task event =>
    have taken := reader_step_cases stepped
    exact ⟨reader_keeps_tasks tasks taken, reader_keeps_frames tasks frames taken,
      reader_keeps_requests frames requests taken, reader_keeps_jobs frames jobs taken⟩

/-! ## Pushes that are not lost -/

/-- A push that is higher than a template was published on the current connection. -/
def HigherPush (state : State) (template : Job) : Prop :=
  ∃ push ∈ state.publications, push.source = none ∧ push.frame.connection = state.connection ∧
    template.height < push.job.height

instance (state : State) (template : Job) : Decidable (HigherPush state template) :=
  inferInstanceAs (Decidable (∃ push ∈ state.publications, _ = none ∧ _ = _ ∧ _ < _))

/-- When `get_job` returns although a push higher than its template was published, the job
    that was last put into the channel is not the template. -/
def KeepsNewer (state : State) : Prop :=
  ∀ id template job, state.phase = .returning id template job → HigherPush state template →
    ∀ last ∈ state.publications.head?, last.source ≠ some id

/-- No push that is higher than a template is published between the look at the channel and the
    replacement, and none was followed by a push that is not, before the look. It is a condition
    on the state before the step. -/
def NothingOvertaken (state : State) (event : Event) : Prop :=
  (event.isComparison = true → ∀ template ∈ state.phase.compared, HigherPush state template →
    (newerThan template state.jobs).isSome = true) ∧
  ∀ task ∈ event.publisher, ∀ job ∈ (state.readers task).job,
    ∀ template ∈ state.phase.replacing, job.height ≤ template.height

instance (state : State) (event : Event) : Decidable (NothingOvertaken state event) :=
  inferInstanceAs (Decidable ((_ = _ → ∀ template ∈ state.phase.compared, HigherPush _ _ → _ = _) ∧
    ∀ task ∈ event.publisher, ∀ job ∈ (state.readers task).job,
      ∀ template ∈ state.phase.replacing, _ ≤ _))

/-- A template that is about to be published is as high as every push of the connection. -/
def NothingHigher (state : State) : Prop :=
  ∀ template ∈ state.phase.replacing, ¬ HigherPush state template

/-- A reader that is about to publish a job can do nothing else. -/
theorem publishing_event {event : ReaderEvent} {frame : Frame} {job : Job}
    (point : state.readers task = .publishing frame job)
    (stepped : readerStep decodeHex state task event = some next) : event = .jobPublished := by
  cases event with
  | jobPublished => rfl
  | cancelled => simp [readerStep, point, Reader.awaits] at stepped
  | _ => simp [readerStep, point] at stepped

/-- A client that is about to look at the channel can do nothing else. -/
theorem comparing_event {event : ClientEvent} {id : Nat} {frame : Frame} {template : Job}
    (phase : state.phase = .comparing id frame template)
    (stepped : clientStep decodeHex state event = some next) : event = .jobCompared := by
  cases event with
  | jobCompared => rfl
  | _ => simp [clientStep, phase] at stepped

/-- A step of a reader that meets the condition lets no push be overtaken. -/
theorem reader_keeps_newer {event : ReaderEvent} (higher : NothingHigher state)
    (newer : KeepsNewer state) (condition : NothingOvertaken state (.reader task event))
    (stepped : readerStep decodeHex state task event = some next) :
    NothingHigher next ∧ KeepsNewer next := by
  have taken := reader_step_cases stepped
  have frame := reader_frame taken
  rcases reader_publications taken with ⟨_, same⟩ | ⟨push, job, point, _, added⟩
  · have pushes : ∀ template, HigherPush next template ↔ HigherPush state template := by
      intro template
      rw [HigherPush, HigherPush, same, frame.connection]
    constructor
    · intro template replacing
      rw [frame.phase] at replacing
      rw [pushes]
      exact higher template replacing
    · intro id template returned phase pushed
      rw [frame.phase] at phase
      rw [same]
      exact newer id template returned phase ((pushes template).mp pushed)
  · constructor
    · rintro template replacing ⟨publication, member, source, connection, above⟩
      rw [frame.phase] at replacing
      rw [added] at member
      rw [frame.connection] at connection
      rcases List.mem_cons.mp member with rfl | earlier
      · obtain rfl := publishing_event point stepped
        have below := condition.2 task rfl job (by rw [point]; rfl) template replacing
        exact absurd above (Nat.not_lt.mpr below)
      · exact higher template replacing ⟨publication, earlier, source, connection, above⟩
    · intro id template returned _ _ last head
      rw [added] at head
      obtain rfl := Option.some.inj head
      exact nofun

/-- A step of the client that meets the condition lets no push be overtaken. -/
theorem client_keeps_newer {event : ClientEvent} (jobs : Jobs decodeHex state)
    (higher : NothingHigher state) (condition : NothingOvertaken state (.client event))
    (stepped : clientStep decodeHex state event = some next) :
    NothingHigher next ∧ KeepsNewer next := by
  have quiet : ∀ {next : State}, next.phase.replacing = none →
      (∀ id template job, next.phase ≠ .returning id template job) →
      NothingHigher next ∧ KeepsNewer next := by
    intro next replacing returning
    constructor
    · intro template member
      rw [replacing] at member
      cases member
    · exact fun id template job phase => absurd phase (returning id template job)
  have finished : ∀ call id result,
      (afterRequest decodeHex call id result).replacing = none ∧
        ∀ other template job, afterRequest decodeHex call id result ≠ .returning other template job := by
    intro call id result
    unfold afterRequest
    split <;> (try split) <;> exact ⟨rfl, nofun⟩
  have taken := client_step_cases stepped
  cases taken with
  | prefersPush id frame template pushed phase newer =>
    constructor
    · exact nofun
    · intro other another job returning _ last head source
      obtain ⟨rfl, _, _⟩ := Phase.returning.inj returning
      have elsewhere := (jobs.sources last (List.mem_of_mem_head? head) id source).2
      rw [phase] at elsewhere
      exact elsewhere rfl
  | prefersTemplate id frame template phase older =>
    obtain rfl := comparing_event phase stepped
    constructor
    · intro other replacing pushed
      obtain rfl := Option.some.inj replacing
      have found := condition.1 rfl template (by rw [phase]; rfl) pushed
      rw [older] at found
      cases found
    · exact nofun
  | publishes id frame template phase =>
    constructor
    · exact nofun
    · rintro other another job returning ⟨push, member, source, connection, above⟩
      obtain ⟨rfl, rfl, rfl⟩ := Phase.returning.inj returning
      rcases List.mem_cons.mp member with rfl | earlier
      · cases source
      · have none_higher := higher template (by rw [phase]; rfl)
        exact absurd ⟨push, earlier, source, connection, above⟩ none_higher
  | removes call id phase => exact quiet (finished call id none).1 (finished call id none).2
  | receives call id frame phase answered =>
    exact quiet (finished call id (some frame)).1 (finished call id (some frame)).2
  | fails call id phase dropped => exact quiet (finished call id none).1 (finished call id none).2
  | _ => exact quiet rfl nofun

/-! ## Jobs of the current connection -/

/-- The job that `get_job` returns was received on the current connection. Whether it is the
    highest of the connection is said apart. -/
def OwnJobs (decodeHex : String → Option (List UInt8)) (state : State) : Prop :=
  ∀ id template job, state.phase = .returning id template job →
    Received decodeHex state state.connection job

/-- A look at the channel finds no job that is higher than the template and was put there on an
    earlier connection. It is a condition on the state before the look. -/
def NothingLeftOver (state : State) (event : Event) : Prop :=
  event.isComparison = true → ∀ template ∈ state.phase.compared,
    ∀ last ∈ state.publications.head?, template.height < last.job.height →
      last.frame.connection = state.connection

instance (state : State) (event : Event) : Decidable (NothingLeftOver state event) :=
  inferInstanceAs (Decidable (_ = _ → ∀ template ∈ state.phase.compared,
    ∀ last ∈ state.publications.head?, _ < _ → _ = _))

/-- A step of a reader leaves a job that is being returned received. -/
theorem reader_keeps_own (own : OwnJobs decodeHex state)
    (stepped : ReaderStep decodeHex state task next) : OwnJobs decodeHex next := by
  have frame := reader_frame stepped
  intro id template job phase
  rw [frame.phase] at phase
  obtain ⟨response, read, received⟩ := own id template job phase
  rw [frame.connection]
  exact ⟨response, reader_frames_grow stepped read, received⟩

/-- A step of the client that meets the condition returns only jobs of the connection. -/
theorem client_keeps_own {event : ClientEvent} (jobs : Jobs decodeHex state)
    (condition : NothingLeftOver state (.client event))
    (stepped : clientStep decodeHex state event = some next) : OwnJobs decodeHex next := by
  have finished : ∀ call id result other template job,
      afterRequest decodeHex call id result ≠ .returning other template job := by
    intro call id result
    unfold afterRequest
    split <;> (try split) <;> exact nofun
  have taken := client_step_cases stepped
  cases taken with
  | prefersPush id frame template pushed phase newer =>
    intro other another job returning
    obtain ⟨rfl, rfl, rfl⟩ := Phase.returning.inj returning
    obtain rfl := comparing_event phase stepped
    obtain ⟨found, higher⟩ := Option.filter_eq_some_iff.mp newer
    rw [jobs.channel] at found
    obtain ⟨last, head, rfl⟩ := Option.map_eq_some_iff.mp found
    obtain ⟨read, carries⟩ := jobs.origins last (List.mem_of_mem_head? head)
    refine ⟨last.frame, read, ?_, carries⟩
    exact condition rfl template (by rw [phase]; rfl) last head (by simpa using higher)
  | publishes id frame template phase =>
    intro other another job returning
    obtain ⟨rfl, rfl, rfl⟩ := Phase.returning.inj returning
    obtain ⟨read, carries, connection⟩ := jobs.template frame template (by rw [phase]; rfl)
    exact ⟨frame, read, connection, carries⟩
  | removes call id phase =>
    exact fun other template job returning => absurd returning (finished _ _ _ other template job)
  | receives call id frame phase answered =>
    exact fun other template job returning => absurd returning (finished _ _ _ other template job)
  | fails call id phase dropped =>
    exact fun other template job returning => absurd returning (finished _ _ _ other template job)
  | _ => exact nofun

end

/-! ## Every run -/

/-- In every run in which no push is overtaken between the look at the channel and the
    replacement, or hidden from the look by a later push, `get_job` never leaves its template in
    the channel when a push higher than it was published on the connection. The channel holds
    the job that was put there last. The server may send any frames, and the reader may act
    between any two steps of the client. -/
theorem get_job_keeps_newer (decodeHex : String → Option (List UInt8)) (events : List Event)
    (state : State) (meets : Runs.Meets (step decodeHex) NothingOvertaken start events)
    (ran : client decodeHex events = some state) :
    KeepsNewer state ∧ state.jobs = state.publications.head?.map Publication.job := by
  have kept : Ordered decodeHex state ∧ NothingHigher state ∧ KeepsNewer state := by
    refine Runs.run_meets_invariant
      (fun state => Ordered decodeHex state ∧ NothingHigher state ∧ KeepsNewer state) ?_
      ⟨start_ordered decodeHex, nofun, nofun⟩ meets ran
    rintro state event next ⟨ordered, higher, newer⟩ condition stepped
    refine ⟨step_ordered ordered stepped, ?_⟩
    cases event with
    | client event => exact client_keeps_newer ordered.jobs higher condition stepped
    | reader task event => exact reader_keeps_newer higher newer condition stepped
  exact ⟨kept.2.2, kept.1.jobs.channel⟩

/-- In every run in which no look at the channel finds a higher job from an earlier connection,
    every job that `get_job` returns was received on the current connection. Nothing is said of
    the jobs that the channel itself holds, nor of those that another caller may read from it. -/
theorem get_job_own_connection (decodeHex : String → Option (List UInt8)) (events : List Event)
    (state : State) (meets : Runs.Meets (step decodeHex) NothingLeftOver start events)
    (ran : client decodeHex events = some state) : OwnJobs decodeHex state := by
  have kept : Ordered decodeHex state ∧ OwnJobs decodeHex state := by
    refine Runs.run_meets_invariant
      (fun state => Ordered decodeHex state ∧ OwnJobs decodeHex state) ?_
      ⟨start_ordered decodeHex, nofun⟩ meets ran
    rintro state event next ⟨ordered, own⟩ condition stepped
    refine ⟨step_ordered ordered stepped, ?_⟩
    cases event with
    | client event => exact client_keeps_own ordered.jobs condition stepped
    | reader task event => exact reader_keeps_own own (reader_step_cases stepped)
  exact kept.2

/-! ## Runs that lose or leak a job -/

/-- The request steps of a call, and the steps of a reader that delivers the answer. -/
def answered (task : Nat) (answer : Value) : List Event :=
  [.client .requestInserted, .client .requestWritten, .reader task .generationChecked,
    .reader task (.frameRead (some answer)), .reader task .frameHandled,
    .reader task .responseCompleted, .client .responseReceived]

/-- The steps of a reader that publishes a push. -/
def pushed (task : Nat) (push : Value) : List Event :=
  [.reader task .generationChecked, .reader task (.frameRead (some push)),
    .reader task .frameHandled, .reader task .jobPublished]

/-- The answer to an accepted login. -/
def loginAnswer (id : Nat) : Value := .object [("id", .unsigned id), ("result", .string "ok")]

/-- A job without a header at a height. -/
def jobAt (height : Nat) : Value :=
  .object [("height", .unsigned height), ("job_id", .unsigned 0), ("difficulty", .unsigned 1),
    ("pre_pow", .string "")]

/-- The answer to a job request. -/
def templateAnswer (id height : Nat) : Value :=
  .object [("id", .unsigned id), ("result", jobAt height)]

/-- A job push. -/
def jobPush (height : Nat) : Value :=
  .object [("method", .string "job"), ("params", jobAt height)]

/-- A push of height six is published before the look at the channel, which then prefers it to
    the template of height five. -/
def pushBeforeLook : List Event :=
  .client .flagRaised :: answered 1 (loginAnswer 1) ++
    .client .jobRequested :: answered 1 (templateAnswer 2 5) ++
    pushed 1 (jobPush 6) ++ [.client .jobCompared]

/-- The push stays in the channel. -/
theorem get_job_keeps_push :
    ∃ state, client (fun _ => some []) pushBeforeLook = some state ∧
      state.phase = .returning 2 ⟨5, 0, 1, ""⟩ ⟨6, 0, 1, ""⟩ ∧ KeepsNewer state :=
  ⟨_, rfl, rfl, (get_job_keeps_newer (fun _ => some []) pushBeforeLook _ (by decide +kernel) rfl).1⟩

/-- A push of height six is published between the look at the channel and the replacement by
    the template of height five. -/
def pushBetween : List Event :=
  .client .flagRaised :: answered 1 (loginAnswer 1) ++
    .client .jobRequested :: answered 1 (templateAnswer 2 5) ++
    .client .jobCompared :: pushed 1 (jobPush 6) ++ [.client .templatePublished]

/-- The template replaces the newer push. -/
theorem get_job_loses_push :
    ∃ state, client (fun _ => some []) pushBetween = some state ∧ ¬ KeepsNewer state ∧
      state.jobs = some ⟨5, 0, 1, ""⟩ := by
  refine ⟨_, rfl, fun keeps => ?_, rfl⟩
  exact keeps 2 ⟨5, 0, 1, ""⟩ ⟨5, 0, 1, ""⟩ rfl (by decide +kernel) _ rfl rfl

/-- The steps of a reconnect up to the login on a new stream, for the second reader. -/
def reconnected : List Event :=
  [.reader 1 .generationChecked, .client .reconnectStarted, .client .disconnected,
    .client .readerAborted, .reader 1 .cancelled, .client .readerAwaited,
    .client .writerShutDown, .client .requestsCleared, .client .dialed, .client .flagRaised]

/-- After a reconnect, the template is higher than what the channel holds. -/
def jobAfterReconnect (height : Nat) : List Event :=
  .client .flagRaised :: answered 1 (loginAnswer 1) ++ pushed 1 (jobPush 9) ++ reconnected ++
    answered 2 (loginAnswer 2) ++ .client .jobRequested :: answered 2 (templateAnswer 3 height) ++
    [.client .jobCompared]

/-- A template that is higher than the job of the earlier connection is returned. -/
theorem get_job_own_template :
    ∃ state, client (fun _ => some [])
        (jobAfterReconnect 10 ++ [.client .templatePublished]) = some state ∧
      state.phase = .returning 3 ⟨10, 0, 1, ""⟩ ⟨10, 0, 1, ""⟩ ∧
      OwnJobs (fun _ => some []) state :=
  ⟨_, rfl, rfl, get_job_own_connection (fun _ => some [])
    (jobAfterReconnect 10 ++ [.client .templatePublished]) _ (by decide +kernel) rfl⟩

/-- After a reconnect to a server whose height went down, the job of the earlier connection is
    returned. -/
theorem get_job_leaks_job :
    ∃ state, client (fun _ => some []) (jobAfterReconnect 5) = some state ∧
      state.online = true ∧ state.phase = .returning 3 ⟨5, 0, 1, ""⟩ ⟨9, 0, 1, ""⟩ ∧
      ¬ OwnJobs (fun _ => some []) state := by
  refine ⟨_, rfl, rfl, rfl, fun own => ?_⟩
  have received := own 3 ⟨5, 0, 1, ""⟩ ⟨9, 0, 1, ""⟩ rfl
  revert received
  decide +kernel

end CuckatooMiner.Stratum
