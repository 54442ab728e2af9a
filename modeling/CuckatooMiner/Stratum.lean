import Mathlib
import CuckatooMiner.Coordinator
import CuckatooMiner.Foundation.Runs

/-!
# The Stratum client

A `StratumClient` owns one connection at a time. Its methods take it by exclusive
reference, so it performs one call after another; a reader task per connection runs
beside them. The two share the pending map of the connection, the job channel, the
connection flag and the number of the current reader generation. A reconnect retires
the reader, clears its map and installs the parts of the new connection; request ids
go on counting.

A step is what client or reader do between two points at which the other can act: a
look at shared data, a change of it, or an await. The server decides what frames
arrive, and time and network decide which calls fail. Frames carry the connection and
the position in which they were read, so that what becomes of them can be told.
-/

namespace CuckatooMiner.Stratum

open Coordinator (Job newerThan)

/-! ## Frames -/

/-- JSON values; numbers that are no unsigned 64-bit number are kept as text. -/
inductive Value
  | null
  | bool (value : Bool)
  | unsigned (value : Nat)
  | number (text : String)
  | string (text : String)
  | array (items : List Value)
  | object (fields : List (String × Value))

namespace Value

/-- The value of a field. -/
def get : Value → String → Option Value
  | .object fields, key => fields.lookup key
  | _, _ => none

/-- The number, if it is an unsigned one. -/
def asU64 : Value → Option Nat
  | .unsigned value => some value
  | _ => none

/-- The text of a string. -/
def asStr : Value → Option String
  | .string text => some text
  | _ => none

/-- Whether it is the null value. -/
def isNull : Value → Bool
  | .null => true
  | _ => false

end Value

/-- The 64-bit number that a text spells in decimal digits, after a plus sign or not. -/
def parseU64 (text : String) : Option Nat :=
  let digits := match text.toList with
    | '+' :: rest => rest
    | characters => characters
  if digits.isEmpty ∨ ¬ digits.all Char.isDigit then none
  else
    let number := digits.foldl (fun number digit => number * 10 + (digit.toNat - 48)) 0
    if number < 2 ^ 64 then some number else none

/-- The id of the request that a frame answers, as a number or in decimal digits. -/
def responseId (value : Value) : Option Nat :=
  (value.get "id").bind fun id => id.asU64.orElse fun _ => id.asStr.bind parseU64

/-- Whether a frame is a job push. -/
def isJobPush (value : Value) : Bool := (value.get "method").bind Value.asStr == some "job"

/-- The error of a response, unless it is null. -/
def rejection (response : Value) : Option Value :=
  (response.get "error").filter fun error => !error.isNull

/-- Whether a response reports success. -/
def ensureOk (response : Value) : Bool :=
  if (rejection response).isSome then false
  else
    match response.get "result" with
    | some (.string "ok") => true
    | some result => !result.isNull
    | none => false

/-- Read a job from its fields, or from an array of them in order. -/
def jobFromValue : Value → Option Job
  | .object fields => do
      let height ← (fields.lookup "height").bind Value.asU64
      let jobId ← (fields.lookup "job_id").bind Value.asU64
      let difficulty ← (fields.lookup "difficulty").bind Value.asU64
      let prePow ← (fields.lookup "pre_pow").bind Value.asStr
      some ⟨height, jobId, difficulty, prePow⟩
  | .array [height, jobId, difficulty, prePow] => do
      some ⟨← height.asU64, ← jobId.asU64, ← difficulty.asU64, ← prePow.asStr⟩
  | _ => none

section Jobs

variable (decodeHex : String → Option (List UInt8))

/-- A job whose header can be decoded. -/
def usable (job : Job) : Bool := (decodeHex job.prePow).isSome

/-- The usable job of a push. -/
def pushedJob (value : Value) : Option Job :=
  ((value.get "params").bind jobFromValue).filter (usable decodeHex)

/-- The usable template of a response. -/
def templateOf (response : Value) : Option Job :=
  if (rejection response).isSome then none
  else (jobFromValue ((response.get "result").getD .null)).filter (usable decodeHex)

end Jobs

/-- A frame, with the connection that it was read from and its number among all frames. -/
structure Frame where
  serial : Nat
  connection : Nat
  value : Value

/-- What the reader does about a frame. -/
inductive Action
  | ignore
  | publish (job : Job)
  | complete (id : Nat)

/-- Job pushes are published, other frames complete the request that they name. -/
def action (decodeHex : String → Option (List UInt8)) (value : Value) : Action :=
  if isJobPush value then
    match pushedJob decodeHex value with
    | some job => .publish job
    | none => .ignore
  else
    match responseId value with
    | some id => .complete id
    | none => .ignore

/-! ## Tasks and calls -/

/-- The points of a reader task. A frame that is no JSON is received as nothing. -/
inductive Reader
  /-- At the head of the loop, perhaps not started yet. -/
  | looping
  /-- Waiting for a frame. -/
  | reading
  /-- The generation is looked at next, then the frame. -/
  | received (frame : Option Frame)
  /-- The job is published next. -/
  | publishing (frame : Frame) (job : Job)
  /-- Waiting for the pending map, to complete a request. -/
  | completing (frame : Frame) (id : Nat)
  /-- Waiting for the pending map, to clear it. -/
  | ending
  /-- The generation is looked at for the last time next. -/
  | closing
  /-- The connection flag is lowered next. -/
  | signalling
  /-- The task has terminated, or was never started. -/
  | finished

/-- The points at which a task can be cancelled. -/
def Reader.awaits : Reader → Bool
  | .looping | .reading | .completing _ _ | .ending => true
  | _ => false

/-- Go on with a frame of a known action. -/
def Reader.act (frame : Frame) : Action → Reader
  | .ignore => .looping
  | .publish job => .publishing frame job
  | .complete id => .completing frame id

/-- The cell in which a request gets its response. -/
inductive Cell
  /-- There is a sender. -/
  | empty
  | filled (frame : Frame)
  /-- The sender was dropped. -/
  | closed

/-- What a request is made for. A login is part of the first connect or of a reconnect. -/
inductive Call
  | login (first : Bool)
  | getJob
  | submit
deriving DecidableEq, Repr

/-- The points of a request. -/
inductive Stage
  /-- Waiting for the pending map, to enter the id. -/
  | inserting
  /-- Writing the frame. -/
  | writing
  /-- Waiting for the response. -/
  | waiting
  /-- Given up; waiting for the pending map, to remove the id. -/
  | removing
deriving DecidableEq, Repr

/-- The points of the client. -/
inductive Phase
  /-- The reader is started; the flag is raised next, and the login begins. -/
  | raising (first : Bool)
  /-- In a request. -/
  | requesting (call : Call) (id : Nat) (stage : Stage)
  /-- The login has failed; the flag is lowered next. -/
  | lowering (first : Bool)
  /-- A template has arrived in a frame; the job channel is looked at next. -/
  | comparing (id : Nat) (frame : Frame) (template : Job)
  /-- The template is published next. -/
  | publishing (id : Nat) (frame : Frame) (template : Job)
  /-- A job is returned next. -/
  | returning (id : Nat) (template job : Job)
  /-- Between calls. -/
  | idle
  /-- A new generation is counted; the flag is lowered next. -/
  | retiring
  /-- The reader is aborted next. -/
  | stopping
  /-- Waiting for an aborted task. -/
  | awaiting (task : Nat)
  /-- Waiting for the writer to shut down. -/
  | shutting
  /-- Waiting for the pending map, to clear it. -/
  | clearing
  /-- Waiting for a new stream. -/
  | dialing
  /-- The first login has failed and the client was dropped. -/
  | gone

/-- A request that has returned: the connection that it was written to and the frame
    that it got, if any. -/
structure Return where
  id : Nat
  connection : Nat
  result : Option Frame

/-- A job that was put into the channel: the frame that it came in, and the request that
    put it there, unless the reader did. -/
structure Publication where
  job : Job
  frame : Frame
  source : Option Nat

/-- The client, its reader tasks and what they share. Pending maps are numbered like the
    readers they were made for; the sender for an id is the cell of that number. -/
structure State where
  generation : Nat
  connection : Nat
  nextId : Nat
  phase : Phase
  readerTask : Option Nat
  readers : Nat → Reader
  aborted : Nat → Bool
  pending : Nat → List Nat
  cells : Nat → Cell
  jobs : Option Job
  connected : Bool
  /-- A connect or reconnect has succeeded and no reconnect was started since. -/
  online : Bool
  /-- All frames that were read, latest first. -/
  frames : List Frame
  /-- The requests that were completed, latest first. -/
  delivered : List (Nat × Frame)
  /-- The requests that have returned, latest first. -/
  returns : List Return
  /-- The jobs that were put into the channel, latest first. -/
  publications : List Publication

/-- Steps of a reader task. -/
inductive ReaderEvent
  | generationChecked
  | frameRead (value : Option Value)
  | streamEnded
  | frameHandled
  | jobPublished
  | responseCompleted
  | requestsDropped
  | endChecked
  | flagLowered
  | cancelled

/-- Steps of the client. -/
inductive ClientEvent
  | flagRaised
  | requestInserted
  | requestWritten
  | writeFailed
  | timedOut
  | requestRemoved
  | responseReceived
  | responseDropped
  | loginAbandoned
  | jobRequested
  | shareSubmitted
  | jobCompared
  | templatePublished
  | jobReturned
  | reconnectStarted
  | disconnected
  | readerAborted
  | readerAwaited
  | writerShutDown
  | requestsCleared
  | dialFailed
  | dialed

/-- Steps of the client and of the reader tasks, which are numbered by generation. -/
inductive Event
  | client (event : ClientEvent)
  | reader (task : Nat) (event : ReaderEvent)

/-! ## Steps -/

/-- Drop the senders for some ids. -/
def dropSenders (ids : List Nat) (cells : Nat → Cell) : Nat → Cell :=
  fun id => if id ∈ ids then .closed else cells id

namespace State

variable (state : State)

/-- A reader goes on. -/
def setReader (task : Nat) (reader : Reader) : State :=
  { state with readers := Function.update state.readers task reader }

/-- Begin a request. -/
def beginRequest (call : Call) : State :=
  { state with
    phase := .requesting call state.nextId .inserting
    nextId := state.nextId + 1
    cells := Function.update state.cells state.nextId .empty }

/-- Remove an id from the pending map of a connection. -/
def removeRequest (connection id : Nat) : State :=
  { state with
    pending := Function.update state.pending connection
      ((state.pending connection).filter (· != id)) }

/-- Clear the pending map of a connection. -/
def clearRequests (connection : Nat) : State :=
  { state with
    pending := Function.update state.pending connection []
    cells := dropSenders (state.pending connection) state.cells }

/-- Put a job into the channel. -/
def publish (publication : Publication) : State :=
  { state with
    jobs := some publication.job
    publications := publication :: state.publications }

/-- Abort the reader task. -/
def abortReader (task : Nat) : State :=
  { state with
    aborted := Function.update state.aborted task true
    readerTask := none }

end State

section

variable (decodeHex : String → Option (List UInt8))

/-- Where a call goes on when its request has returned. -/
def afterRequest (call : Call) (id : Nat) (result : Option Frame) : Phase :=
  match call, result with
  | .login first, some frame => if ensureOk frame.value then .idle else .lowering first
  | .login first, none => .lowering first
  | .getJob, some frame =>
      match templateOf decodeHex frame.value with
      | some template => .comparing id frame template
      | none => .idle
  | .getJob, none => .idle
  | .submit, _ => .idle

/-- Whether a login was successful. -/
def loggedIn (call : Call) (result : Option Frame) : Bool :=
  match call, result with
  | .login _, some frame => ensureOk frame.value
  | _, _ => false

/-- A request returns. -/
def State.finishRequest (state : State) (call : Call) (id : Nat) (result : Option Frame) : State :=
  { state with
    phase := afterRequest decodeHex call id result
    online := state.online || loggedIn call result
    returns := ⟨id, state.connection, result⟩ :: state.returns }

/-- The steps of a reader task. What a frame holds is given by the step: the decoder of its text
    is not modelled, and none stands for a text that does not decode. -/
def readerStep (state : State) (task : Nat) (event : ReaderEvent) : Option State :=
  match state.readers task, event with
  | .looping, .generationChecked =>
      some (state.setReader task (if state.generation = task then .reading else .ending))
  | .reading, .frameRead none => some (state.setReader task (.received none))
  | .reading, .frameRead (some value) =>
      let frame := ⟨state.frames.length, task, value⟩
      some { state.setReader task (.received (some frame)) with frames := frame :: state.frames }
  | .reading, .streamEnded => some (state.setReader task .ending)
  | .received frame, .frameHandled =>
      if state.generation = task then
        match frame with
        | none => some (state.setReader task .looping)
        | some frame => some (state.setReader task (.act frame (action decodeHex frame.value)))
      else some (state.setReader task .ending)
  | .publishing frame job, .jobPublished =>
      some ((state.publish ⟨job, frame, none⟩).setReader task .looping)
  | .completing frame id, .responseCompleted =>
      if id ∈ state.pending task then
        some { (state.removeRequest task id).setReader task .looping with
          cells := Function.update state.cells id (.filled frame)
          delivered := (id, frame) :: state.delivered }
      else some (state.setReader task .looping)
  | .ending, .requestsDropped => some ((state.clearRequests task).setReader task .closing)
  | .closing, .endChecked =>
      some (state.setReader task (if state.generation = task then .signalling else .finished))
  | .signalling, .flagLowered => some { state.setReader task .finished with connected := false }
  | reader, .cancelled =>
      if state.aborted task ∧ reader.awaits then some (state.setReader task .finished) else none
  | _, _ => none

/-- The steps of the client. A client that has used up its ids goes no further. The
    generation that a reconnect has counted is the current one until it returns. -/
def clientStep (state : State) (event : ClientEvent) : Option State :=
  match state.phase, event with
  | .raising first, .flagRaised =>
      if state.nextId + 1 < 2 ^ 64 then
        some { state.beginRequest (.login first) with connected := true }
      else none
  | .idle, .jobRequested =>
      if state.nextId + 1 < 2 ^ 64 then some (state.beginRequest .getJob) else none
  | .idle, .shareSubmitted =>
      if state.nextId + 1 < 2 ^ 64 then some (state.beginRequest .submit) else none
  | .requesting call id .inserting, .requestInserted =>
      some { state with
        phase := .requesting call id .writing
        pending := Function.update state.pending state.connection
          ((state.pending state.connection).insert id) }
  | .requesting call id .writing, .requestWritten =>
      some { state with phase := .requesting call id .waiting }
  | .requesting call id .writing, .writeFailed =>
      some { state with phase := .requesting call id .removing }
  | .requesting call id .waiting, .timedOut =>
      some { state with phase := .requesting call id .removing }
  | .requesting call id .removing, .requestRemoved =>
      some ((state.removeRequest state.connection id).finishRequest decodeHex call id none)
  | .requesting call id .waiting, .responseReceived =>
      match state.cells id with
      | .filled frame => some (state.finishRequest decodeHex call id (some frame))
      | _ => none
  | .requesting call id .waiting, .responseDropped =>
      match state.cells id with
      | .closed => some (state.finishRequest decodeHex call id none)
      | _ => none
  | .lowering false, .loginAbandoned => some { state with phase := .idle, connected := false }
  | .lowering true, .loginAbandoned =>
      match state.readerTask with
      | some task => some { state.abortReader task with phase := .gone, connected := false }
      | none => some { state with phase := .gone, connected := false }
  | .comparing id frame template, .jobCompared =>
      match newerThan template state.jobs with
      | some pushed => some { state with phase := .returning id template pushed }
      | none => some { state with phase := .publishing id frame template }
  | .publishing id frame template, .templatePublished =>
      some { state.publish ⟨template, frame, some id⟩ with
        phase := .returning id template template }
  | .returning _ _ _, .jobReturned => some { state with phase := .idle }
  | .idle, .reconnectStarted =>
      some { state with phase := .retiring, generation := state.generation + 1, online := false }
  | .retiring, .disconnected => some { state with phase := .stopping, connected := false }
  | .stopping, .readerAborted =>
      match state.readerTask with
      | some task => some { state.abortReader task with phase := .awaiting task }
      | none => some { state with phase := .shutting }
  | .awaiting task, .readerAwaited =>
      match state.readers task with
      | .finished => some { state with phase := .shutting }
      | _ => none
  | .shutting, .writerShutDown => some { state with phase := .clearing }
  | .clearing, .requestsCleared =>
      some { state.clearRequests state.connection with phase := .dialing }
  | .dialing, .dialFailed => some { state with phase := .idle }
  | .dialing, .dialed =>
      some { state.setReader state.generation .looping with
        phase := .raising false
        connection := state.generation
        pending := Function.update state.pending state.generation []
        readerTask := some state.generation }
  | _, _ => none

/-- A step of the client or of a reader task. Steps of different tasks come in any order; one
    that is not possible in a state is none. A timeout is a step, since time is not part of the
    model. -/
def step (state : State) : Event → Option State
  | .client event => clientStep decodeHex state event
  | .reader task event => readerStep decodeHex state task event

end

/-- A client whose first stream is open and whose first reader is started. -/
def start : State where
  generation := 1
  connection := 1
  nextId := 1
  phase := .raising true
  readerTask := some 1
  readers := Function.update (fun _ => .finished) 1 .looping
  aborted := fun _ => false
  pending := fun _ => []
  cells := fun _ => .closed
  jobs := none
  connected := false
  online := false
  frames := []
  delivered := []
  returns := []
  publications := []

/-- A run of the client from its first connection. -/
def client (decodeHex : String → Option (List UInt8)) (events : List Event) : Option State :=
  Runs.run (step decodeHex) start events

/-! ## What a step can do -/

/-- Every step of a reader task, with what it requires of the state before it. -/
inductive ReaderStep (decodeHex : String → Option (List UInt8)) (state : State) (task : Nat) :
    State → Prop
  | goesOn (point : state.readers task = .looping) (current : state.generation = task) :
      ReaderStep decodeHex state task (state.setReader task .reading)
  | retires (point : state.readers task = .looping) (retired : state.generation ≠ task) :
      ReaderStep decodeHex state task (state.setReader task .ending)
  | readsJunk (point : state.readers task = .reading) :
      ReaderStep decodeHex state task (state.setReader task (.received none))
  | reads (value : Value) (point : state.readers task = .reading) :
      ReaderStep decodeHex state task { state.setReader task
          (.received (some ⟨state.frames.length, task, value⟩)) with
        frames := ⟨state.frames.length, task, value⟩ :: state.frames }
  | ends (point : state.readers task = .reading) :
      ReaderStep decodeHex state task (state.setReader task .ending)
  | skips (point : state.readers task = .received none) (current : state.generation = task) :
      ReaderStep decodeHex state task (state.setReader task .looping)
  | handles (frame : Frame) (point : state.readers task = .received (some frame))
      (current : state.generation = task) :
      ReaderStep decodeHex state task
        (state.setReader task (.act frame (action decodeHex frame.value)))
  | discards (frame : Option Frame) (point : state.readers task = .received frame)
      (retired : state.generation ≠ task) :
      ReaderStep decodeHex state task (state.setReader task .ending)
  | publishes (frame : Frame) (job : Job) (point : state.readers task = .publishing frame job) :
      ReaderStep decodeHex state task
        ((state.publish ⟨job, frame, none⟩).setReader task .looping)
  | completes (frame : Frame) (id : Nat) (point : state.readers task = .completing frame id)
      (known : id ∈ state.pending task) :
      ReaderStep decodeHex state task { (state.removeRequest task id).setReader task .looping with
        cells := Function.update state.cells id (.filled frame)
        delivered := (id, frame) :: state.delivered }
  | ignores (frame : Frame) (id : Nat) (point : state.readers task = .completing frame id)
      (unknown : id ∉ state.pending task) :
      ReaderStep decodeHex state task (state.setReader task .looping)
  | clears (point : state.readers task = .ending) :
      ReaderStep decodeHex state task ((state.clearRequests task).setReader task .closing)
  | signals (point : state.readers task = .closing) (current : state.generation = task) :
      ReaderStep decodeHex state task (state.setReader task .signalling)
  | leaves (point : state.readers task = .closing) (retired : state.generation ≠ task) :
      ReaderStep decodeHex state task (state.setReader task .finished)
  | lowers (point : state.readers task = .signalling) :
      ReaderStep decodeHex state task { state.setReader task .finished with connected := false }
  | cancels (aborted : state.aborted task = true) (awaits : (state.readers task).awaits = true) :
      ReaderStep decodeHex state task (state.setReader task .finished)

/-- Every step of the client, with what it requires of the state before it. -/
inductive ClientStep (decodeHex : String → Option (List UInt8)) (state : State) : State → Prop
  | raises (first : Bool) (phase : state.phase = .raising first) :
      ClientStep decodeHex state { state.beginRequest (.login first) with connected := true }
  | begins (call : Call) (phase : state.phase = .idle) (work : call = .getJob ∨ call = .submit) :
      ClientStep decodeHex state (state.beginRequest call)
  | inserts (call : Call) (id : Nat) (phase : state.phase = .requesting call id .inserting) :
      ClientStep decodeHex state { state with
        phase := .requesting call id .writing
        pending := Function.update state.pending state.connection
          ((state.pending state.connection).insert id) }
  | goesOn (call : Call) (id : Nat) (before after : Stage)
      (phase : state.phase = .requesting call id before)
      (stages : before = .writing ∧ after = .waiting ∨ before = .writing ∧ after = .removing ∨
        before = .waiting ∧ after = .removing) :
      ClientStep decodeHex state { state with phase := .requesting call id after }
  | removes (call : Call) (id : Nat) (phase : state.phase = .requesting call id .removing) :
      ClientStep decodeHex state
        ((state.removeRequest state.connection id).finishRequest decodeHex call id none)
  | receives (call : Call) (id : Nat) (frame : Frame)
      (phase : state.phase = .requesting call id .waiting)
      (answered : state.cells id = .filled frame) :
      ClientStep decodeHex state (state.finishRequest decodeHex call id (some frame))
  | fails (call : Call) (id : Nat) (phase : state.phase = .requesting call id .waiting)
      (dropped : state.cells id = .closed) :
      ClientStep decodeHex state (state.finishRequest decodeHex call id none)
  | abandons (phase : state.phase = .lowering false) :
      ClientStep decodeHex state { state with phase := .idle, connected := false }
  | drops (task : Nat) (phase : state.phase = .lowering true)
      (started : state.readerTask = some task) :
      ClientStep decodeHex state { state.abortReader task with phase := .gone, connected := false }
  | dropsNothing (phase : state.phase = .lowering true) (stopped : state.readerTask = none) :
      ClientStep decodeHex state { state with phase := .gone, connected := false }
  | prefersPush (id : Nat) (frame : Frame) (template pushed : Job)
      (phase : state.phase = .comparing id frame template)
      (newer : newerThan template state.jobs = some pushed) :
      ClientStep decodeHex state { state with phase := .returning id template pushed }
  | prefersTemplate (id : Nat) (frame : Frame) (template : Job)
      (phase : state.phase = .comparing id frame template)
      (older : newerThan template state.jobs = none) :
      ClientStep decodeHex state { state with phase := .publishing id frame template }
  | publishes (id : Nat) (frame : Frame) (template : Job)
      (phase : state.phase = .publishing id frame template) :
      ClientStep decodeHex state { state.publish ⟨template, frame, some id⟩ with
        phase := .returning id template template }
  | returns (id : Nat) (template job : Job) (phase : state.phase = .returning id template job) :
      ClientStep decodeHex state { state with phase := .idle }
  | retires (phase : state.phase = .idle) :
      ClientStep decodeHex state { state with
        phase := .retiring, generation := state.generation + 1, online := false }
  | disconnects (phase : state.phase = .retiring) :
      ClientStep decodeHex state { state with phase := .stopping, connected := false }
  | aborts (task : Nat) (phase : state.phase = .stopping)
      (started : state.readerTask = some task) :
      ClientStep decodeHex state { state.abortReader task with phase := .awaiting task }
  | abortsNothing (phase : state.phase = .stopping) (stopped : state.readerTask = none) :
      ClientStep decodeHex state { state with phase := .shutting }
  | joins (task : Nat) (phase : state.phase = .awaiting task)
      (ended : state.readers task = .finished) :
      ClientStep decodeHex state { state with phase := .shutting }
  | shutsDown (phase : state.phase = .shutting) :
      ClientStep decodeHex state { state with phase := .clearing }
  | clears (phase : state.phase = .clearing) :
      ClientStep decodeHex state { state.clearRequests state.connection with phase := .dialing }
  | dialFails (phase : state.phase = .dialing) :
      ClientStep decodeHex state { state with phase := .idle }
  | dials (phase : state.phase = .dialing) :
      ClientStep decodeHex state { state.setReader state.generation .looping with
        phase := .raising false
        connection := state.generation
        pending := Function.update state.pending state.generation []
        readerTask := some state.generation }

section

variable {decodeHex : String → Option (List UInt8)} {state next : State}

/-- A reader task takes no other steps. -/
theorem reader_step_cases {task : Nat} {event : ReaderEvent}
    (stepped : readerStep decodeHex state task event = some next) :
    ReaderStep decodeHex state task next := by
  unfold readerStep at stepped
  split at stepped
  · rename_i point
    cases stepped
    split
    · exact .goesOn point ‹_›
    · exact .retires point ‹_›
  · rename_i point
    cases stepped
    exact .readsJunk point
  · rename_i value point
    cases stepped
    exact .reads value point
  · rename_i point
    cases stepped
    exact .ends point
  · rename_i frame point
    split at stepped
    · rename_i current
      split at stepped
      · cases stepped
        exact .skips point current
      · cases stepped
        exact .handles _ point current
    · rename_i retired
      cases stepped
      exact .discards frame point retired
  · rename_i frame job point
    cases stepped
    exact .publishes frame job point
  · rename_i frame id point
    split at stepped
    · rename_i known
      cases stepped
      exact .completes frame id point known
    · rename_i unknown
      cases stepped
      exact .ignores frame id point unknown
  · rename_i point
    cases stepped
    exact .clears point
  · rename_i point
    cases stepped
    split
    · exact .signals point ‹_›
    · exact .leaves point ‹_›
  · rename_i point
    cases stepped
    exact .lowers point
  · split at stepped
    · rename_i cancelled
      cases stepped
      exact .cancels cancelled.1 cancelled.2
    · cases stepped
  · cases stepped

/-- The client takes no other steps. -/
theorem client_step_cases {event : ClientEvent}
    (stepped : clientStep decodeHex state event = some next) : ClientStep decodeHex state next := by
  unfold clientStep at stepped
  split at stepped
  · rename_i first phase
    split at stepped
    · cases stepped
      exact .raises first phase
    · cases stepped
  · rename_i phase
    split at stepped
    · cases stepped
      exact .begins .getJob phase (Or.inl rfl)
    · cases stepped
  · rename_i phase
    split at stepped
    · cases stepped
      exact .begins .submit phase (Or.inr rfl)
    · cases stepped
  · rename_i call id phase
    cases stepped
    exact .inserts call id phase
  · rename_i call id phase
    cases stepped
    exact .goesOn call id .writing .waiting phase (Or.inl ⟨rfl, rfl⟩)
  · rename_i call id phase
    cases stepped
    exact .goesOn call id .writing .removing phase (Or.inr (Or.inl ⟨rfl, rfl⟩))
  · rename_i call id phase
    cases stepped
    exact .goesOn call id .waiting .removing phase (Or.inr (Or.inr ⟨rfl, rfl⟩))
  · rename_i call id phase
    cases stepped
    exact .removes call id phase
  · rename_i call id phase
    split at stepped
    · rename_i frame answered
      cases stepped
      exact .receives call id frame phase answered
    · cases stepped
  · rename_i call id phase
    split at stepped
    · rename_i dropped
      cases stepped
      exact .fails call id phase dropped
    · cases stepped
  · rename_i phase
    cases stepped
    exact .abandons phase
  · rename_i phase
    split at stepped
    · rename_i task started
      cases stepped
      exact .drops task phase started
    · rename_i stopped
      cases stepped
      exact .dropsNothing phase stopped
  · rename_i id frame template phase
    split at stepped
    · rename_i pushed newer
      cases stepped
      exact .prefersPush id frame template pushed phase newer
    · rename_i older
      cases stepped
      exact .prefersTemplate id frame template phase older
  · rename_i id frame template phase
    cases stepped
    exact .publishes id frame template phase
  · rename_i id template job phase
    cases stepped
    exact .returns id template job phase
  · rename_i phase
    cases stepped
    exact .retires phase
  · rename_i phase
    cases stepped
    exact .disconnects phase
  · rename_i phase
    split at stepped
    · rename_i task started
      cases stepped
      exact .aborts task phase started
    · rename_i stopped
      cases stepped
      exact .abortsNothing phase stopped
  · rename_i task phase
    split at stepped
    · rename_i ended
      cases stepped
      exact .joins task phase ended
    · cases stepped
  · rename_i phase
    cases stepped
    exact .shutsDown phase
  · rename_i phase
    cases stepped
    exact .clears phase
  · rename_i phase
    cases stepped
    exact .dialFails phase
  · rename_i phase
    cases stepped
    exact .dials phase
  · cases stepped

end

end CuckatooMiner.Stratum
