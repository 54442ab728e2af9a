import Mathlib
import CuckatooMiner.Stratum

/-!
# The connection flag

The client raises the flag when the reader of a new connection is already running, and
a reader lowers it when it ends, if its generation is still the current one. Two things
make the flag truthful once a connect or reconnect has succeeded. The login is answered
by a reader that was alive after the flag was raised, so whenever that reader ends, it
lowers the flag last. And a reconnect waits for the old reader before it starts the
next one, so there is never more than one.
-/

namespace CuckatooMiner.Stratum

/-! ## Phases -/

/-- Between the start of a reconnect and its new stream. -/
def Phase.renewing : Phase → Bool
  | .retiring | .stopping | .awaiting _ | .shutting | .clearing | .dialing => true
  | _ => false

/-- The handle of the reader was given away. -/
def Phase.detached : Phase → Bool
  | .awaiting _ | .shutting | .clearing | .dialing => true
  | _ => false

/-- A login is under way. -/
def Phase.loggingIn : Phase → Bool
  | .raising _ | .requesting (.login _) _ _ => true
  | _ => false

/-- Between calls or in a call other than connect and reconnect. -/
def Phase.serving : Phase → Bool
  | .requesting .getJob _ _ | .requesting .submit _ _ | .comparing _ _ _ | .publishing _ _ _
  | .returning _ _ _ | .idle => true
  | _ => false

/-- In a call that leaves the tasks alone. -/
def Phase.settled (phase : Phase) : Prop := phase.renewing = false ∧ phase ≠ .gone

/-- The handle of the reader is given away in reconnects only. -/
theorem detached_renewing {phase : Phase} (detached : phase.detached = true) :
    phase.renewing = true := by
  cases phase <;> first
    | rfl
    | cases detached

/-- A request that has returned leads to a call that leaves the tasks alone. -/
theorem after_request_settled (decodeHex : String → Option (List UInt8)) (call : Call) (id : Nat)
    (result : Option Frame) : (afterRequest decodeHex call id result).settled := by
  unfold afterRequest
  split <;> (try split) <;> exact ⟨rfl, Phase.noConfusion⟩

/-- No login is under way when a request has returned. -/
theorem after_request_not_logging_in (decodeHex : String → Option (List UInt8)) (call : Call)
    (id : Nat) (result : Option Frame) :
    (afterRequest decodeHex call id result).loggingIn = false := by
  unfold afterRequest
  split <;> (try split) <;> rfl

/-- A successful login ends between calls. -/
theorem after_login (decodeHex : String → Option (List UInt8)) {call : Call} {result : Option Frame}
    (id : Nat) (successful : loggedIn call result = true) :
    afterRequest decodeHex call id result = .idle := by
  unfold loggedIn at successful
  split at successful
  · exact if_pos successful
  · cases successful

/-- Only a login is a successful login, and it was answered. -/
theorem logged_in_cases {call : Call} {result : Option Frame}
    (successful : loggedIn call result = true) :
    ∃ first frame, call = .login first ∧ result = some frame := by
  unfold loggedIn at successful
  split at successful
  · exact ⟨_, _, rfl, rfl⟩
  · cases successful

/-- A request that is no login leads to a phase that serves calls. -/
theorem after_request_serving (decodeHex : String → Option (List UInt8)) {call : Call}
    (work : call = .getJob ∨ call = .submit) (id : Nat) (result : Option Frame) :
    (afterRequest decodeHex call id result).serving = true := by
  unfold afterRequest
  rcases work with rfl | rfl
  · cases result with
    | none => rfl
    | some frame =>
      simp only
      split <;> rfl
  · rfl

/-! ## Who runs -/

/-- At most the reader of the client's connection runs, and the client can still wait for
    it, unless the client is gone. -/
structure Tasks (state : State) : Prop where
  alive : ∀ task, state.readers task ≠ .finished → task = state.connection ∧
    (state.readerTask = some task ∨ state.phase = .awaiting task ∨ state.phase = .gone)
  owned : ∀ task, state.readerTask = some task → task = state.connection
  detached : state.phase.detached = true → state.readerTask = none
  ordered : state.connection ≤ state.generation
  renewed : state.phase.renewing = true → state.connection < state.generation
  abortedBefore : ∀ task, state.aborted task = true → task ≤ state.connection

/-- What a step of a reader leaves as it is, and what it means when the task terminates. -/
structure ReaderFrame (state next : State) (task : Nat) : Prop where
  generation : next.generation = state.generation
  connection : next.connection = state.connection
  nextId : next.nextId = state.nextId
  phase : next.phase = state.phase
  readerTask : next.readerTask = state.readerTask
  aborted : next.aborted = state.aborted
  online : next.online = state.online
  returns : next.returns = state.returns
  running : state.readers task ≠ .finished
  others : ∀ other, other ≠ task → next.readers other = state.readers other
  neverRaises : next.connected = true → state.connected = true
  terminates : next.readers task = .finished → next.cells = state.cells ∧
    (next.connected = false ∨ state.generation ≠ task ∨ state.aborted task = true)

section

variable {decodeHex : String → Option (List UInt8)} {state next : State} {task : Nat}

/-- The reader that takes a step is at its new point afterwards. -/
@[simp] theorem set_reader_self (state : State) (task : Nat) (reader : Reader) :
    (state.setReader task reader).readers task = reader :=
  Function.update_self _ _ _

/-- The other readers are where they were. -/
theorem set_reader_other (state : State) (task other : Nat) (reader : Reader)
    (different : other ≠ task) :
    (state.setReader task reader).readers other = state.readers other :=
  Function.update_of_ne different _ _

/-- No frame terminates a reader. -/
theorem act_ne_finished (frame : Frame) (action : Action) : Reader.act frame action ≠ .finished := by
  cases action <;> exact Reader.noConfusion

/-- Only the step that is taken decides where a reader is. -/
theorem moved_others (readers : Nat → Reader) (task : Nat) (reader : Reader) :
    ∀ other, other ≠ task → Function.update readers task reader other = readers other :=
  fun _ different => Function.update_of_ne different _ _

/-- A reader that goes on to a point that is not its end. -/
theorem moved_running (readers : Nat → Reader) (task : Nat) {reader : Reader} {claim : Prop}
    (running : reader ≠ .finished) :
    Function.update readers task reader task = .finished → claim := by
  rw [Function.update_self]
  exact fun finished => absurd finished running

/-- What every step of a reader leaves as it is. -/
theorem reader_frame (stepped : ReaderStep decodeHex state task next) :
    ReaderFrame state next task := by
  have others := moved_others state.readers task
  have running : ∀ point, state.readers task = point → point ≠ .finished →
      state.readers task ≠ .finished := fun point here different => here ▸ different
  cases stepped with
  | goesOn point current =>
    exact ⟨rfl, rfl, rfl, rfl, rfl, rfl, rfl, rfl, running _ point nofun, others _, id,
      moved_running _ _ nofun⟩
  | retires point retired =>
    exact ⟨rfl, rfl, rfl, rfl, rfl, rfl, rfl, rfl, running _ point nofun, others _, id,
      moved_running _ _ nofun⟩
  | readsJunk point =>
    exact ⟨rfl, rfl, rfl, rfl, rfl, rfl, rfl, rfl, running _ point nofun, others _, id,
      moved_running _ _ nofun⟩
  | reads value point =>
    exact ⟨rfl, rfl, rfl, rfl, rfl, rfl, rfl, rfl, running _ point nofun, others _, id,
      moved_running _ _ nofun⟩
  | ends point =>
    exact ⟨rfl, rfl, rfl, rfl, rfl, rfl, rfl, rfl, running _ point nofun, others _, id,
      moved_running _ _ nofun⟩
  | skips point current =>
    exact ⟨rfl, rfl, rfl, rfl, rfl, rfl, rfl, rfl, running _ point nofun, others _, id,
      moved_running _ _ nofun⟩
  | handles frame point current =>
    exact ⟨rfl, rfl, rfl, rfl, rfl, rfl, rfl, rfl, running _ point nofun, others _, id,
      moved_running _ _ (act_ne_finished frame _)⟩
  | discards frame point retired =>
    exact ⟨rfl, rfl, rfl, rfl, rfl, rfl, rfl, rfl, running _ point nofun, others _, id,
      moved_running _ _ nofun⟩
  | publishes frame job point =>
    exact ⟨rfl, rfl, rfl, rfl, rfl, rfl, rfl, rfl, running _ point nofun, others _, id,
      moved_running _ _ nofun⟩
  | completes frame id point known =>
    exact ⟨rfl, rfl, rfl, rfl, rfl, rfl, rfl, rfl, running _ point nofun, others _, fun on => on,
      moved_running _ _ nofun⟩
  | ignores frame id point unknown =>
    exact ⟨rfl, rfl, rfl, rfl, rfl, rfl, rfl, rfl, running _ point nofun, others _, fun on => on,
      moved_running _ _ nofun⟩
  | clears point =>
    exact ⟨rfl, rfl, rfl, rfl, rfl, rfl, rfl, rfl, running _ point nofun, others _, id,
      moved_running _ _ nofun⟩
  | signals point current =>
    exact ⟨rfl, rfl, rfl, rfl, rfl, rfl, rfl, rfl, running _ point nofun, others _, id,
      moved_running _ _ nofun⟩
  | leaves point retired =>
    exact ⟨rfl, rfl, rfl, rfl, rfl, rfl, rfl, rfl, running _ point nofun, others _, id,
      fun _ => ⟨rfl, Or.inr (Or.inl retired)⟩⟩
  | lowers point =>
    exact ⟨rfl, rfl, rfl, rfl, rfl, rfl, rfl, rfl, running _ point nofun, others _,
      fun raised => Bool.noConfusion raised, fun _ => ⟨rfl, Or.inl rfl⟩⟩
  | cancels aborted awaits =>
    refine ⟨rfl, rfl, rfl, rfl, rfl, rfl, rfl, rfl, fun finished => ?_, others _, id,
      fun _ => ⟨rfl, Or.inr (Or.inr aborted)⟩⟩
    rw [finished] at awaits
    cases awaits

/-- A step of a reader keeps the tasks in order. -/
theorem reader_keeps_tasks (tasks : Tasks state) (stepped : ReaderStep decodeHex state task next) :
    Tasks next := by
  have frame := reader_frame stepped
  refine ⟨?_, ?_, ?_, ?_, ?_, ?_⟩
  · intro other running
    rw [frame.connection, frame.readerTask, frame.phase]
    by_cases same : other = task
    · subst same
      exact tasks.alive other frame.running
    · rw [frame.others other same] at running
      exact tasks.alive other running
  · rw [frame.connection, frame.readerTask]
    exact tasks.owned
  · rw [frame.phase, frame.readerTask]
    exact tasks.detached
  · rw [frame.connection, frame.generation]
    exact tasks.ordered
  · rw [frame.phase, frame.connection, frame.generation]
    exact tasks.renewed
  · rw [frame.aborted, frame.connection]
    exact tasks.abortedBefore

/-- A step of the client between two calls that leave the tasks alone keeps them in order. -/
theorem settled_keeps_tasks (tasks : Tasks state) (before : state.phase.settled)
    (after : next.phase.settled) (sameReaders : next.readers = state.readers)
    (sameTask : next.readerTask = state.readerTask) (sameAborted : next.aborted = state.aborted)
    (sameConnection : next.connection = state.connection)
    (sameGeneration : next.generation = state.generation) : Tasks next := by
  refine ⟨?_, ?_, ?_, ?_, ?_, ?_⟩
  · intro task running
    rw [sameReaders] at running
    obtain ⟨same, held | waits | gone⟩ := tasks.alive task running
    · rw [sameConnection, sameTask]
      exact ⟨same, Or.inl held⟩
    · have renewing := before.1
      rw [waits] at renewing
      cases renewing
    · exact absurd gone before.2
  · rw [sameTask, sameConnection]
    exact tasks.owned
  · intro detached
    have renewing := detached_renewing detached
    rw [after.1] at renewing
    cases renewing
  · rw [sameConnection, sameGeneration]
    exact tasks.ordered
  · intro renewing
    exact absurd renewing (by rw [after.1]; exact Bool.noConfusion)
  · rw [sameAborted, sameConnection]
    exact tasks.abortedBefore

/-- A step of the client within a reconnect keeps the tasks in order, unless it starts a
    reader: its handle can only be given away, to be waited for. -/
theorem renewing_keeps_tasks (tasks : Tasks state) (before : state.phase.renewing = true)
    (sameReaders : next.readers = state.readers) (sameConnection : next.connection = state.connection)
    (sameGeneration : next.generation = state.generation)
    (held : ∀ task, state.readers task ≠ .finished → state.readerTask = some task ∨
      state.phase = .awaiting task → next.readerTask = some task ∨ next.phase = .awaiting task)
    (owned : ∀ task, next.readerTask = some task → state.readerTask = some task)
    (detached : next.phase.detached = true → next.readerTask = none)
    (aborted : ∀ task, next.aborted task = true →
      state.aborted task = true ∨ state.readerTask = some task) : Tasks next := by
  refine ⟨?_, ?_, detached, ?_, ?_, ?_⟩
  · intro task running
    rw [sameReaders] at running
    obtain ⟨same, waits⟩ := tasks.alive task running
    refine ⟨sameConnection ▸ same, ?_⟩
    have kept : state.readerTask = some task ∨ state.phase = .awaiting task := by
      rcases waits with handle | waits | gone
      · exact Or.inl handle
      · exact Or.inr waits
      · rw [gone] at before
        cases before
    exact (held task running kept).imp id Or.inl
  · intro task handle
    rw [sameConnection]
    exact tasks.owned task (owned task handle)
  · rw [sameConnection, sameGeneration]
    exact tasks.ordered
  · intro _
    rw [sameConnection, sameGeneration]
    exact tasks.renewed before
  · intro task was_aborted
    rw [sameConnection]
    rcases aborted task was_aborted with earlier | handle
    · exact tasks.abortedBefore task earlier
    · exact Nat.le_of_eq (tasks.owned task handle)

/-- A handle that is not given away is still held. -/
theorem still_held (sameTask : next.readerTask = state.readerTask)
    (notWaiting : ∀ task, state.phase ≠ .awaiting task) (task : Nat) :
    state.readers task ≠ .finished → state.readerTask = some task ∨
      state.phase = .awaiting task → next.readerTask = some task ∨ next.phase = .awaiting task := by
  rintro _ (handle | waits)
  · exact Or.inl (sameTask.trans handle)
  · exact absurd waits (notWaiting task)

/-- When a new stream is dialed, no reader runs. -/
theorem no_reader_runs (tasks : Tasks state) (phase : state.phase = .dialing) (task : Nat) :
    state.readers task = .finished := by
  by_contra running
  obtain ⟨_, handle | waits | gone⟩ := tasks.alive task running
  · have given_away := tasks.detached (by rw [phase]; rfl)
    exact absurd (handle.symm.trans given_away) nofun
  · exact absurd (phase.symm.trans waits) nofun
  · exact absurd (phase.symm.trans gone) nofun

/-- Aborting a task leaves the other tasks as they were. -/
theorem abort_reader_aborted (state : State) (task other : Nat)
    (aborted : (state.abortReader task).aborted other = true) :
    state.aborted other = true ∨ other = task := by
  by_cases same : other = task
  · exact Or.inr same
  · have unchanged : (state.abortReader task).aborted other = state.aborted other :=
      Function.update_of_ne same _ _
    exact Or.inl (unchanged ▸ aborted)

/-- A step of the client keeps the tasks in order. -/
theorem client_keeps_tasks (tasks : Tasks state) (stepped : ClientStep decodeHex state next) :
    Tasks next := by
  have settled : ∀ {phase}, state.phase = phase → phase.settled → state.phase.settled :=
    fun same before => same ▸ before
  have finished := after_request_settled decodeHex
  cases stepped with
  | raises first phase =>
    exact settled_keeps_tasks tasks (settled phase ⟨rfl, nofun⟩) ⟨rfl, nofun⟩ rfl rfl rfl rfl rfl
  | begins call phase work =>
    exact settled_keeps_tasks tasks (settled phase ⟨rfl, nofun⟩) ⟨rfl, nofun⟩ rfl rfl rfl rfl rfl
  | inserts call id phase =>
    exact settled_keeps_tasks tasks (settled phase ⟨rfl, nofun⟩) ⟨rfl, nofun⟩ rfl rfl rfl rfl rfl
  | goesOn call id before after phase stages =>
    exact settled_keeps_tasks tasks (settled phase ⟨rfl, nofun⟩) ⟨rfl, nofun⟩ rfl rfl rfl rfl rfl
  | removes call id phase =>
    exact settled_keeps_tasks tasks (settled phase ⟨rfl, nofun⟩) (finished _ _ _) rfl rfl rfl rfl rfl
  | receives call id frame phase answered =>
    exact settled_keeps_tasks tasks (settled phase ⟨rfl, nofun⟩) (finished _ _ _) rfl rfl rfl rfl rfl
  | fails call id phase dropped =>
    exact settled_keeps_tasks tasks (settled phase ⟨rfl, nofun⟩) (finished _ _ _) rfl rfl rfl rfl rfl
  | abandons phase =>
    exact settled_keeps_tasks tasks (settled phase ⟨rfl, nofun⟩) ⟨rfl, nofun⟩ rfl rfl rfl rfl rfl
  | drops task phase started =>
    refine ⟨?_, nofun, nofun, tasks.ordered, nofun, ?_⟩
    · intro other running
      exact ⟨(tasks.alive other running).1, Or.inr (Or.inr rfl)⟩
    · intro other aborted
      rcases abort_reader_aborted state task other aborted with earlier | rfl
      · exact tasks.abortedBefore other earlier
      · exact Nat.le_of_eq (tasks.owned other started)
  | dropsNothing phase stopped =>
    refine ⟨?_, tasks.owned, nofun, tasks.ordered, nofun, tasks.abortedBefore⟩
    intro other running
    exact ⟨(tasks.alive other running).1, Or.inr (Or.inr rfl)⟩
  | prefersPush id frame template pushed phase newer =>
    exact settled_keeps_tasks tasks (settled phase ⟨rfl, nofun⟩) ⟨rfl, nofun⟩ rfl rfl rfl rfl rfl
  | prefersTemplate id frame template phase older =>
    exact settled_keeps_tasks tasks (settled phase ⟨rfl, nofun⟩) ⟨rfl, nofun⟩ rfl rfl rfl rfl rfl
  | publishes id frame template phase =>
    exact settled_keeps_tasks tasks (settled phase ⟨rfl, nofun⟩) ⟨rfl, nofun⟩ rfl rfl rfl rfl rfl
  | returns id template job phase =>
    exact settled_keeps_tasks tasks (settled phase ⟨rfl, nofun⟩) ⟨rfl, nofun⟩ rfl rfl rfl rfl rfl
  | retires phase =>
    refine ⟨?_, tasks.owned, nofun, ?_, ?_, tasks.abortedBefore⟩
    · intro task running
      obtain ⟨same, handle | waits | gone⟩ := tasks.alive task running
      · exact ⟨same, Or.inl handle⟩
      · exact absurd (phase.symm.trans waits) nofun
      · exact absurd (phase.symm.trans gone) nofun
    · exact Nat.le_succ_of_le tasks.ordered
    · exact fun _ => Nat.lt_succ_of_le tasks.ordered
  | disconnects phase =>
    refine renewing_keeps_tasks tasks (by rw [phase]; rfl) rfl rfl rfl ?_ (fun _ => id) nofun
      fun _ => Or.inl
    exact still_held rfl fun task waits => absurd (phase.symm.trans waits) nofun
  | aborts task phase started =>
    refine renewing_keeps_tasks tasks (by rw [phase]; rfl) rfl rfl rfl ?_ nofun (fun _ => rfl) ?_
    · rintro other _ (handle | waits)
      · obtain rfl := Option.some.inj (started.symm.trans handle)
        exact Or.inr rfl
      · exact absurd (phase.symm.trans waits) nofun
    · intro other aborted
      exact (abort_reader_aborted state task other aborted).imp id fun same => by rw [same, started]
  | abortsNothing phase stopped =>
    refine renewing_keeps_tasks tasks (by rw [phase]; rfl) rfl rfl rfl ?_ (fun _ => id)
      (fun _ => stopped) fun _ => Or.inl
    exact still_held rfl fun task waits => absurd (phase.symm.trans waits) nofun
  | joins task phase ended =>
    refine renewing_keeps_tasks tasks (by rw [phase]; rfl) rfl rfl rfl ?_ (fun _ => id)
      (fun _ => tasks.detached (by rw [phase]; rfl)) fun _ => Or.inl
    rintro other running (handle | waits)
    · exact Or.inl handle
    · obtain rfl := Phase.awaiting.inj (phase.symm.trans waits)
      exact absurd ended running
  | shutsDown phase =>
    refine renewing_keeps_tasks tasks (by rw [phase]; rfl) rfl rfl rfl ?_ (fun _ => id)
      (fun _ => tasks.detached (by rw [phase]; rfl)) fun _ => Or.inl
    exact still_held rfl fun task waits => absurd (phase.symm.trans waits) nofun
  | clears phase =>
    refine renewing_keeps_tasks tasks (by rw [phase]; rfl) rfl rfl rfl ?_ (fun _ => id)
      (fun _ => tasks.detached (by rw [phase]; rfl)) fun _ => Or.inl
    exact still_held rfl fun task waits => absurd (phase.symm.trans waits) nofun
  | dialFails phase =>
    refine renewing_keeps_tasks tasks (by rw [phase]; rfl) rfl rfl rfl ?_ (fun _ => id) nofun
      fun _ => Or.inl
    exact still_held rfl fun task waits => absurd (phase.symm.trans waits) nofun
  | dials phase =>
    have quiet := no_reader_runs tasks phase
    refine ⟨?_, ?_, nofun, Nat.le_refl _, nofun, ?_⟩
    · intro task running
      by_cases same : task = state.generation
      · exact ⟨same, Or.inl (congrArg some same.symm)⟩
      · exact absurd (quiet task) (by
          have unchanged := set_reader_other state state.generation task .looping same
          exact unchanged ▸ running)
    · exact fun task handle => (Option.some.inj handle).symm
    · exact fun task aborted => (tasks.abortedBefore task aborted).trans tasks.ordered

/-! ## What the flag says -/

/-- While a login is under way and after it has succeeded, the reader of the connection is
    the current one and was not aborted. Once the login is answered, that reader lowers the
    flag when it ends. -/
structure Truthful (state : State) : Prop where
  serving : state.online = true → state.phase.serving = true
  current : state.online = true ∨ state.phase.loggingIn = true →
    state.generation = state.connection ∧ state.aborted state.connection = false
  answered : ∀ first id stage frame, state.phase = .requesting (.login first) id stage →
    state.cells id = .filled frame → state.readers state.connection = .finished →
      state.connected = false
  lowered : state.online = true → state.readers state.connection = .finished →
    state.connected = false

/-- Outside of logins, a client that is not online promises nothing. -/
theorem truthful_offline (offline : state.online = false) (outside : state.phase.loggingIn = false) :
    Truthful state := by
  refine ⟨?_, ?_, ?_, ?_⟩
  · exact fun online => absurd (offline.symm.trans online) nofun
  · rintro (online | login)
    · exact absurd (offline.symm.trans online) nofun
    · exact absurd (outside.symm.trans login) nofun
  · intro first id stage frame phase
    rw [phase] at outside
    cases outside
  · exact fun online => absurd (offline.symm.trans online) nofun

/-- A client in a phase that serves no calls is not online. -/
theorem offline_of_phase (truthful : Truthful state) (phase : state.phase.serving = false) :
    state.online = false := by
  by_contra online
  exact absurd (phase.symm.trans (truthful.serving (by simpa using online))) nofun

/-- A step of a reader keeps the flag truthful: the current reader cannot end without
    lowering it, and fills cells only before it ends. -/
theorem reader_keeps_truthful (tasks : Tasks state) (truthful : Truthful state)
    (stepped : ReaderStep decodeHex state task next) : Truthful next := by
  have frame := reader_frame stepped
  have own := (tasks.alive task frame.running).1
  have ends : state.online = true ∨ state.phase.loggingIn = true →
      next.readers next.connection = .finished →
        next.cells = state.cells ∧ next.connected = false := by
    intro watched finished
    obtain ⟨current, unaborted⟩ := truthful.current watched
    rw [frame.connection, ← own] at finished
    rw [← own] at current unaborted
    obtain ⟨cells, lowered | retired | aborted⟩ := frame.terminates finished
    · exact ⟨cells, lowered⟩
    · exact absurd current retired
    · exact absurd (unaborted.symm.trans aborted) nofun
  refine ⟨?_, ?_, ?_, ?_⟩
  · rw [frame.online, frame.phase]
    exact truthful.serving
  · rw [frame.online, frame.phase, frame.generation, frame.connection, frame.aborted]
    exact truthful.current
  · intro first id stage response phase _ finished
    rw [frame.phase] at phase
    exact (ends (Or.inr (by rw [phase]; rfl)) finished).2
  · intro online finished
    rw [frame.online] at online
    exact (ends (Or.inl online) finished).2

/-- A step of a client that is not logging in keeps the flag truthful if it leaves the
    tasks, the flag and the connection alone. -/
theorem serving_keeps_truthful (truthful : Truthful state) (after : next.phase.serving = true)
    (outside : next.phase.loggingIn = false) (sameReaders : next.readers = state.readers)
    (sameAborted : next.aborted = state.aborted) (sameConnection : next.connection = state.connection)
    (sameGeneration : next.generation = state.generation) (sameFlag : next.connected = state.connected)
    (sameOnline : next.online = state.online) : Truthful next := by
  refine ⟨fun _ => after, ?_, ?_, ?_⟩
  · rintro (online | login)
    · rw [sameGeneration, sameConnection, sameAborted]
      exact truthful.current (Or.inl (sameOnline ▸ online))
    · exact absurd (outside.symm.trans login) nofun
  · intro first id stage frame phase
    rw [phase] at outside
    cases outside
  · rw [sameOnline, sameReaders, sameConnection, sameFlag]
    exact truthful.lowered

/-- A step within a request keeps the flag truthful. -/
theorem request_keeps_truthful (truthful : Truthful state) {call : Call} {id : Nat}
    {before after : Stage} (phase : state.phase = .requesting call id before)
    (nextPhase : next.phase = .requesting call id after) (sameReaders : next.readers = state.readers)
    (sameAborted : next.aborted = state.aborted) (sameConnection : next.connection = state.connection)
    (sameGeneration : next.generation = state.generation) (sameFlag : next.connected = state.connected)
    (sameOnline : next.online = state.online) (sameCells : next.cells = state.cells) :
    Truthful next := by
  refine ⟨?_, ?_, ?_, ?_⟩
  · intro online
    have serving := truthful.serving (sameOnline ▸ online)
    rw [phase] at serving
    rw [nextPhase]
    cases call <;> first
      | rfl
      | cases serving
  · rw [sameOnline, sameGeneration, sameConnection, sameAborted, nextPhase]
    intro watched
    refine truthful.current (watched.imp_right fun login => ?_)
    rw [phase]
    cases call <;> first
      | rfl
      | cases login
  · intro first other stage frame inLogin filled finished
    obtain ⟨rfl, rfl, _⟩ := Phase.requesting.inj (nextPhase.symm.trans inLogin)
    rw [sameFlag]
    rw [sameCells] at filled
    rw [sameReaders, sameConnection] at finished
    exact truthful.answered first _ before frame phase filled finished
  · rw [sameOnline, sameReaders, sameConnection, sameFlag]
    exact truthful.lowered

/-- The return of a request keeps the flag truthful: a login succeeds only if it was
    answered. -/
theorem finish_keeps_truthful (truthful : Truthful state) {call : Call} {id : Nat} {stage : Stage}
    (result : Option Frame) (phase : state.phase = .requesting call id stage)
    (answered : ∀ frame, result = some frame → state.cells id = .filled frame) :
    Truthful (state.finishRequest decodeHex call id result) := by
  have outside := after_request_not_logging_in decodeHex call id result
  by_cases successful : loggedIn call result = true
  · obtain ⟨first, frame, rfl, rfl⟩ := logged_in_cases successful
    have current := truthful.current (Or.inr (by rw [phase]; rfl))
    refine ⟨fun _ => ?_, fun _ => current, ?_, fun _ finished => ?_⟩
    · change (afterRequest decodeHex (.login first) id (some frame)).serving = true
      rw [after_login decodeHex id successful]
      rfl
    · intro other _ _ _ inLogin
      have logging : (afterRequest decodeHex (.login first) id (some frame)).loggingIn = true := by
        rw [show afterRequest decodeHex (.login first) id (some frame) = _ from inLogin]
        rfl
      exact absurd (outside.symm.trans logging) nofun
    · exact truthful.answered first id stage frame phase (answered frame rfl) finished
  · have unchanged : (state.finishRequest decodeHex call id result).online = state.online := by
      change (state.online || loggedIn call result) = state.online
      rw [Bool.eq_false_iff.mpr successful, Bool.or_false]
    cases call with
    | login first =>
      have offline := offline_of_phase truthful (by rw [phase]; rfl)
      exact truthful_offline (unchanged.trans offline) outside
    | getJob =>
      exact serving_keeps_truthful truthful (after_request_serving decodeHex (Or.inl rfl) id result)
        outside rfl rfl rfl rfl rfl unchanged
    | submit =>
      exact serving_keeps_truthful truthful (after_request_serving decodeHex (Or.inr rfl) id result)
        outside rfl rfl rfl rfl rfl unchanged

/-- A step of the client keeps the flag truthful. -/
theorem client_keeps_truthful (tasks : Tasks state) (truthful : Truthful state)
    (stepped : ClientStep decodeHex state next) : Truthful next := by
  have offline : ∀ {phase}, state.phase = phase → phase.serving = false → state.online = false :=
    fun same other => offline_of_phase truthful (same ▸ other)
  cases stepped with
  | raises first phase =>
    have idle := offline phase rfl
    have current := truthful.current (Or.inr (by rw [phase]; rfl))
    refine ⟨?_, fun _ => current, ?_, ?_⟩
    · exact fun online => absurd (idle.symm.trans online) nofun
    · intro other id stage frame inLogin filled
      obtain ⟨_, rfl, _⟩ := Phase.requesting.inj inLogin
      have empty : Function.update state.cells state.nextId .empty state.nextId = .empty :=
        Function.update_self _ _ _
      exact absurd (empty.symm.trans filled) nofun
    · exact fun online => absurd (idle.symm.trans online) nofun
  | begins call phase work =>
    rcases work with rfl | rfl
    · exact serving_keeps_truthful truthful rfl rfl rfl rfl rfl rfl rfl rfl
    · exact serving_keeps_truthful truthful rfl rfl rfl rfl rfl rfl rfl rfl
  | inserts call id phase =>
    exact request_keeps_truthful truthful phase rfl rfl rfl rfl rfl rfl rfl rfl
  | goesOn call id before after phase stages =>
    exact request_keeps_truthful truthful phase rfl rfl rfl rfl rfl rfl rfl rfl
  | removes call id phase =>
    have removed : Truthful (state.removeRequest state.connection id) :=
      request_keeps_truthful truthful phase phase rfl rfl rfl rfl rfl rfl rfl
    exact finish_keeps_truthful removed none phase nofun
  | receives call id frame phase answered =>
    refine finish_keeps_truthful truthful (some frame) phase fun other same => ?_
    rw [answered, Option.some.inj same]
  | fails call id phase dropped => exact finish_keeps_truthful truthful none phase nofun
  | abandons phase => exact truthful_offline (offline phase rfl) rfl
  | drops task phase started => exact truthful_offline (offline phase rfl) rfl
  | dropsNothing phase stopped => exact truthful_offline (offline phase rfl) rfl
  | prefersPush id frame template pushed phase newer =>
    exact serving_keeps_truthful truthful rfl rfl rfl rfl rfl rfl rfl rfl
  | prefersTemplate id frame template phase older =>
    exact serving_keeps_truthful truthful rfl rfl rfl rfl rfl rfl rfl rfl
  | publishes id frame template phase =>
    exact serving_keeps_truthful truthful rfl rfl rfl rfl rfl rfl rfl rfl
  | returns id template job phase =>
    exact serving_keeps_truthful truthful rfl rfl rfl rfl rfl rfl rfl rfl
  | retires phase => exact truthful_offline rfl rfl
  | disconnects phase => exact truthful_offline (offline phase rfl) rfl
  | aborts task phase started => exact truthful_offline (offline phase rfl) rfl
  | abortsNothing phase stopped => exact truthful_offline (offline phase rfl) rfl
  | joins task phase ended => exact truthful_offline (offline phase rfl) rfl
  | shutsDown phase => exact truthful_offline (offline phase rfl) rfl
  | clears phase => exact truthful_offline (offline phase rfl) rfl
  | dialFails phase => exact truthful_offline (offline phase rfl) rfl
  | dials phase =>
    have idle := offline phase rfl
    have fresh : state.aborted state.generation = false := by
      have newer := tasks.renewed (by rw [phase]; rfl)
      by_contra aborted
      have bound := tasks.abortedBefore state.generation (by simpa using aborted)
      omega
    refine ⟨?_, fun _ => ⟨rfl, fresh⟩, nofun, ?_⟩
    · exact fun online => absurd (idle.symm.trans online) nofun
    · exact fun online => absurd (idle.symm.trans online) nofun

/-! ## Every run -/

/-- At the start one reader runs, and nothing is promised. -/
theorem start_tasks : Tasks start := by
  refine ⟨?_, ?_, nofun, Nat.le_refl _, nofun, nofun⟩
  · intro task running
    by_cases same : task = 1
    · exact ⟨same, Or.inl (congrArg some same.symm)⟩
    · have finished : start.readers task = .finished :=
        moved_others (fun _ => .finished) 1 .looping task same
      exact absurd finished running
  · exact fun task handle => (Option.some.inj handle).symm

/-- Tasks and flag are in order after every run. -/
theorem run_tasks {events : List Event} (ran : client decodeHex events = some state) :
    Tasks state ∧ Truthful state := by
  refine Runs.run_invariant (fun state => Tasks state ∧ Truthful state) ?_
    ⟨start_tasks, nofun, fun _ => ⟨rfl, rfl⟩, nofun, nofun⟩ ran
  rintro state event next ⟨tasks, truthful⟩ stepped
  cases event with
  | client event =>
    have taken := client_step_cases stepped
    exact ⟨client_keeps_tasks tasks taken, client_keeps_truthful tasks truthful taken⟩
  | reader task event =>
    have taken := reader_step_cases stepped
    exact ⟨reader_keeps_tasks tasks taken, reader_keeps_truthful tasks truthful taken⟩

end

/-- At every point after a connect or reconnect has succeeded and before the next reconnect
    starts: if the reader of the current generation has terminated, the connection flag is down,
    and no reader of an earlier generation can take any step, so none changes the flag, the job
    channel or the pending map. Nothing is said before the first connect has succeeded or while
    a reconnect is under way, and the flag may be down while the reader still runs. -/
theorem connection_flag_truthful (decodeHex : String → Option (List UInt8)) (events : List Event)
    (state : State) (ran : client decodeHex events = some state) (online : state.online = true) :
    (state.readers state.generation = .finished → state.connected = false) ∧
      ∀ task < state.generation, ∀ event, step decodeHex state (.reader task event) = none := by
  obtain ⟨tasks, truthful⟩ := run_tasks ran
  have current := (truthful.current (Or.inl online)).1
  refine ⟨?_, ?_⟩
  · rw [current]
    exact truthful.lowered online
  · intro task earlier event
    by_contra stepped
    obtain ⟨next, taken⟩ := Option.ne_none_iff_exists'.mp stepped
    have running := (reader_frame (reader_step_cases taken)).running
    have same := (tasks.alive task running).1
    omega

/-- A first connect with an accepted login, after which the stream ends. -/
def loginThenEnd : List Event :=
  [.client .flagRaised, .client .requestInserted, .client .requestWritten,
    .reader 1 .generationChecked,
    .reader 1 (.frameRead (some (.object [("id", .unsigned 1), ("result", .string "ok")]))),
    .reader 1 .frameHandled, .reader 1 .responseCompleted, .client .responseReceived,
    .reader 1 .generationChecked, .reader 1 .streamEnded, .reader 1 .requestsDropped,
    .reader 1 .endChecked, .reader 1 .flagLowered]

/-- The flag is down when the stream has ended. -/
theorem connection_flag_after_end :
    ∃ state, client (fun _ => some []) loginThenEnd = some state ∧ state.online = true ∧
      state.connected = false :=
  ⟨_, rfl, rfl, (connection_flag_truthful (fun _ => some []) loginThenEnd _ rfl rfl).1 rfl⟩

end CuckatooMiner.Stratum
