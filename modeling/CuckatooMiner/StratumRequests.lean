import Mathlib
import CuckatooMiner.StratumTasks

/-!
# Requests and responses

A request enters its id into the pending map of the connection, writes its frame and
waits. The reader takes the id out of the map when it delivers a response, and takes all
ids out when it ends; a request that gives up takes out its own. Ids are never used
twice, so a response that comes too late finds no entry, and is dropped.

The invariant says that an id in a map is the id of the one request under way, on the
client's connection, and that its cell is still empty. What a reader has in hand was not
delivered before.
-/

namespace CuckatooMiner.Stratum

/-- The request under way. -/
def Phase.request : Phase → Option Nat
  | .requesting _ id _ => some id
  | _ => none

/-- The request under way, once its id was entered into the pending map. -/
def Phase.entered : Phase → Option Nat
  | .requesting _ _ .inserting => none
  | .requesting _ id _ => some id
  | _ => none

/-- A request that was entered is under way. -/
theorem request_of_entered {phase : Phase} {id : Nat} (entered : phase.entered = some id) :
    phase.request = some id := by
  cases phase with
  | requesting call other stage =>
    cases stage with
    | inserting => cases entered
    | writing => exact entered
    | waiting => exact entered
    | removing => exact entered
  | _ => cases entered

/-- No request is under way when one has returned. -/
theorem after_request_idle (decodeHex : String → Option (List UInt8)) (call : Call) (id : Nat)
    (result : Option Frame) : (afterRequest decodeHex call id result).request = none := by
  unfold afterRequest
  split <;> (try split) <;> rfl

/-- The frame that a reader has in hand. -/
def Reader.frame : Reader → Option Frame
  | .received frame => frame
  | .publishing frame _ => some frame
  | .completing frame _ => some frame
  | _ => none

/-- A frame is a response to a request. -/
def Answers (frame : Frame) (id : Nat) : Prop :=
  responseId frame.value = some id ∧ isJobPush frame.value = false

/-- Frames are numbered as they are read, and a frame in hand was not delivered. A frame that
    answers nothing may be held and dropped. -/
structure Frames (state : State) : Prop where
  numbered : ∀ frame ∈ state.frames, frame.serial < state.frames.length
  distinct : (state.frames.map Frame.serial).Nodup
  held : ∀ task frame, (state.readers task).frame = some frame →
    frame ∈ state.frames ∧ frame.connection = task ∧
      ∀ delivery ∈ state.delivered, delivery.2.serial ≠ frame.serial
  completing : ∀ task frame id, state.readers task = .completing frame id → Answers frame id
  delivered : ∀ delivery ∈ state.delivered, delivery.2 ∈ state.frames ∧
    Answers delivery.2 delivery.1
  once : (state.delivered.map fun delivery => delivery.2.serial).Nodup

/-- Only the request under way is in a pending map; it has a sender as long as it is, and
    what it gets is delivered to it on its connection. -/
structure Requests (state : State) : Prop where
  entered : ∀ connection id, id ∈ state.pending connection →
    connection = state.connection ∧ state.phase.entered = some id ∧ state.cells id = .empty
  fresh : ∀ call id, state.phase = .requesting call id .inserting → state.cells id = .empty
  outstanding : ∀ id, state.phase.request = some id →
    id < state.nextId ∧ ∀ returned ∈ state.returns, returned.id ≠ id
  filled : ∀ id frame, state.phase.request = some id → state.cells id = .filled frame →
    (id, frame) ∈ state.delivered ∧ frame.connection = state.connection
  counted : ∀ returned ∈ state.returns, returned.id < state.nextId
  answered : ∀ returned ∈ state.returns, ∀ frame, returned.result = some frame →
    (returned.id, frame) ∈ state.delivered ∧ frame.connection = returned.connection
  once : (state.returns.map Return.id).Nodup

section

variable {decodeHex : String → Option (List UInt8)} {state next : State} {task : Nat}

/-- An id in some map after one map was replaced. -/
theorem mem_update {pending : Nat → List Nat} {map other id : Nat} {ids : List Nat}
    (member : id ∈ Function.update pending map ids other) :
    other = map ∧ id ∈ ids ∨ other ≠ map ∧ id ∈ pending other := by
  by_cases same : other = map
  · subst same
    rw [Function.update_self] at member
    exact Or.inl ⟨rfl, member⟩
  · rw [Function.update_of_ne same] at member
    exact Or.inr ⟨same, member⟩

/-! ## Frames -/

/-- A frame that is acted upon stays the one in hand. -/
theorem act_frame (frame other : Frame) (action : Action)
    (held : (Reader.act frame action).frame = some other) : other = frame := by
  cases action with
  | ignore => cases held
  | publish job => exact (Option.some.inj held).symm
  | complete id => exact (Option.some.inj held).symm

/-- A frame completes the request that it names, unless it is a job push. -/
theorem act_completing (decodeHex : String → Option (List UInt8)) (frame other : Frame) (id : Nat)
    (completing : Reader.act frame (action decodeHex frame.value) = .completing other id) :
    other = frame ∧ Answers frame id := by
  unfold action at completing
  split at completing
  · split at completing <;> cases completing
  · rename_i response
    split at completing
    · rename_i named known
      obtain ⟨rfl, rfl⟩ := Reader.completing.inj completing
      exact ⟨rfl, known, by simpa using response⟩
    · cases completing

/-- A reader that goes on without a new frame keeps the frames in order. -/
theorem moved_keeps_frames (frames : Frames state) (reader : Reader)
    (readers : next.readers = Function.update state.readers task reader)
    (sameFrames : next.frames = state.frames) (sameDelivered : next.delivered = state.delivered)
    (held : ∀ frame, reader.frame = some frame → (state.readers task).frame = some frame)
    (completing : ∀ frame id, reader = .completing frame id → Answers frame id) : Frames next := by
  refine ⟨?_, ?_, ?_, ?_, ?_, ?_⟩
  · rw [sameFrames]
    exact frames.numbered
  · rw [sameFrames]
    exact frames.distinct
  · intro other frame inHand
    rw [sameFrames, sameDelivered]
    rw [readers] at inHand
    by_cases same : other = task
    · subst same
      rw [Function.update_self] at inHand
      exact frames.held other frame (held frame inHand)
    · rw [Function.update_of_ne same] at inHand
      exact frames.held other frame inHand
  · intro other frame id point
    rw [readers] at point
    by_cases same : other = task
    · subst same
      rw [Function.update_self] at point
      exact completing frame id point
    · rw [Function.update_of_ne same] at point
      exact frames.completing other frame id point
  · rw [sameFrames, sameDelivered]
    exact frames.delivered
  · rw [sameDelivered]
    exact frames.once

/-- A step of a reader keeps the frames in order. -/
theorem reader_keeps_frames (tasks : Tasks state) (frames : Frames state)
    (stepped : ReaderStep decodeHex state task next) : Frames next := by
  have frame := reader_frame stepped
  cases stepped with
  | goesOn point current =>
    exact moved_keeps_frames frames .reading rfl rfl rfl nofun nofun
  | retires point retired =>
    exact moved_keeps_frames frames .ending rfl rfl rfl nofun nofun
  | readsJunk point =>
    exact moved_keeps_frames frames (.received none) rfl rfl rfl nofun nofun
  | reads value point =>
    have new : ∀ other ∈ state.frames, other.serial ≠ state.frames.length := fun other member =>
      Nat.ne_of_lt (frames.numbered other member)
    refine ⟨?_, ?_, ?_, ?_, ?_, frames.once⟩
    · intro other member
      rcases List.mem_cons.mp member with rfl | earlier
      · exact Nat.lt_succ_self _
      · exact Nat.lt_succ_of_lt (frames.numbered other earlier)
    · refine List.nodup_cons.mpr ⟨?_, frames.distinct⟩
      intro member
      obtain ⟨other, earlier, same⟩ := List.mem_map.mp member
      exact new other earlier same
    · intro other held inHand
      by_cases same : other = task
      · subst same
        have read : (Function.update state.readers other
            (.received (some ⟨state.frames.length, other, value⟩)) other).frame = some held := inHand
        rw [Function.update_self] at read
        obtain rfl := Option.some.inj read
        refine ⟨List.mem_cons_self, rfl, fun delivery member => ?_⟩
        exact new _ (frames.delivered delivery member).1
      · have unmoved := moved_others state.readers task
          (.received (some ⟨state.frames.length, task, value⟩)) other same
        have before : (state.readers other).frame = some held := unmoved ▸ inHand
        obtain ⟨read, connection, undelivered⟩ := frames.held other held before
        exact ⟨List.mem_cons_of_mem _ read, connection, undelivered⟩
    · intro other held id completing
      by_cases same : other = task
      · subst same
        have read : Function.update state.readers other
            (.received (some ⟨state.frames.length, other, value⟩)) other = .completing held id :=
          completing
        rw [Function.update_self] at read
        cases read
      · have unmoved := moved_others state.readers task
          (.received (some ⟨state.frames.length, task, value⟩)) other same
        exact frames.completing other held id (unmoved ▸ completing)
    · intro delivery member
      obtain ⟨read, answers⟩ := frames.delivered delivery member
      exact ⟨List.mem_cons_of_mem _ read, answers⟩
  | ends point =>
    exact moved_keeps_frames frames .ending rfl rfl rfl nofun nofun
  | skips point current =>
    exact moved_keeps_frames frames .looping rfl rfl rfl nofun nofun
  | handles held point current =>
    refine moved_keeps_frames frames _ rfl rfl rfl ?_ ?_
    · intro other inHand
      rw [act_frame held other _ inHand, point]
      rfl
    · intro other id completing
      obtain ⟨rfl, answers⟩ := act_completing decodeHex held other id completing
      exact answers
  | discards held point retired =>
    exact moved_keeps_frames frames .ending rfl rfl rfl nofun nofun
  | publishes held job point =>
    exact moved_keeps_frames frames .looping rfl rfl rfl nofun nofun
  | completes held id point known =>
    obtain ⟨read, _, undelivered⟩ := frames.held task held (by rw [point]; rfl)
    have idle : ∀ other, (Function.update state.readers task .looping other).frame = none := by
      intro other
      by_cases same : other = task
      · rw [same, Function.update_self]
        rfl
      · rw [Function.update_of_ne same]
        have finished : state.readers other = .finished := by
          by_contra running
          have own := (tasks.alive task frame.running).1
          have others := (tasks.alive other running).1
          omega
        rw [finished]
        rfl
    refine ⟨frames.numbered, frames.distinct, ?_, ?_, ?_, ?_⟩
    · intro other inReader inHand
      exact absurd ((idle other).symm.trans inHand) nofun
    · intro other inReader named completing
      have nothing := idle other
      rw [show Function.update state.readers task .looping other = _ from completing] at nothing
      cases nothing
    · intro delivery member
      rcases List.mem_cons.mp member with rfl | earlier
      · exact ⟨read, frames.completing task held id point⟩
      · exact frames.delivered delivery earlier
    · refine List.nodup_cons.mpr ⟨?_, frames.once⟩
      intro member
      obtain ⟨delivery, earlier, same⟩ := List.mem_map.mp member
      exact undelivered delivery earlier same
  | ignores held id point unknown =>
    exact moved_keeps_frames frames .looping rfl rfl rfl nofun nofun
  | clears point =>
    exact moved_keeps_frames frames .closing rfl rfl rfl nofun nofun
  | signals point current =>
    exact moved_keeps_frames frames .signalling rfl rfl rfl nofun nofun
  | leaves point retired =>
    exact moved_keeps_frames frames .finished rfl rfl rfl nofun nofun
  | lowers point =>
    exact moved_keeps_frames frames .finished rfl rfl rfl nofun nofun
  | cancels aborted awaits =>
    exact moved_keeps_frames frames .finished rfl rfl rfl nofun nofun

/-- The client leaves the frames alone; it only starts readers. -/
theorem client_frames (stepped : ClientStep decodeHex state next) :
    next.frames = state.frames ∧ next.delivered = state.delivered ∧
      (next.readers = state.readers ∨
        next.readers = Function.update state.readers state.generation .looping) := by
  cases stepped <;> first
    | exact ⟨rfl, rfl, Or.inl rfl⟩
    | exact ⟨rfl, rfl, Or.inr rfl⟩

/-- A step of the client keeps the frames in order. -/
theorem client_keeps_frames (frames : Frames state) (stepped : ClientStep decodeHex state next) :
    Frames next := by
  obtain ⟨sameFrames, sameDelivered, sameReaders | started⟩ := client_frames stepped
  · refine ⟨?_, ?_, ?_, ?_, ?_, ?_⟩
    · rw [sameFrames]
      exact frames.numbered
    · rw [sameFrames]
      exact frames.distinct
    · rw [sameReaders, sameFrames, sameDelivered]
      exact frames.held
    · rw [sameReaders]
      exact frames.completing
    · rw [sameFrames, sameDelivered]
      exact frames.delivered
    · rw [sameDelivered]
      exact frames.once
  · exact moved_keeps_frames frames .looping started sameFrames sameDelivered nofun nofun

/-! ## Requests -/

/-- A step that leaves the parts of a request alone, and does not begin one. -/
structure RequestFrame (state next : State) : Prop where
  pending : next.pending = state.pending
  cells : next.cells = state.cells
  connection : next.connection = state.connection
  nextId : next.nextId = state.nextId
  returns : next.returns = state.returns
  delivered : next.delivered = state.delivered
  request : next.phase.request = state.phase.request
  entered : next.phase.entered = state.phase.entered
  inserting : ∀ call id, next.phase = .requesting call id .inserting →
    state.phase = .requesting call id .inserting

/-- A step that leaves the parts of a request alone keeps the requests in order. -/
theorem frame_keeps_requests (requests : Requests state) (frame : RequestFrame state next) :
    Requests next where
  entered := by
    rw [frame.pending, frame.connection, frame.entered, frame.cells]
    exact requests.entered
  fresh := by
    rw [frame.cells]
    exact fun call id phase => requests.fresh call id (frame.inserting call id phase)
  outstanding := by
    rw [frame.request, frame.nextId, frame.returns]
    exact requests.outstanding
  filled := by
    rw [frame.request, frame.cells, frame.delivered, frame.connection]
    exact requests.filled
  counted := by
    rw [frame.returns, frame.nextId]
    exact requests.counted
  answered := by
    rw [frame.returns, frame.delivered]
    exact requests.answered
  once := by
    rw [frame.returns]
    exact requests.once

/-- A step of a reader that leaves maps and cells alone. -/
theorem reader_request_frame (stepped : ReaderStep decodeHex state task next)
    (pending : next.pending = state.pending) (cells : next.cells = state.cells)
    (delivered : next.delivered = state.delivered) : RequestFrame state next := by
  have frame := reader_frame stepped
  refine ⟨pending, cells, frame.connection, frame.nextId, frame.returns, delivered, ?_, ?_, ?_⟩
  · rw [frame.phase]
  · rw [frame.phase]
  · rw [frame.phase]
    exact fun _ _ => id

/-- A delivery keeps the requests in order. -/
theorem delivery_keeps_requests (frames : Frames state) (requests : Requests state) (held : Frame)
    (id : Nat) (point : state.readers task = .completing held id)
    (known : id ∈ state.pending task) :
    Requests { (state.removeRequest task id).setReader task .looping with
      cells := Function.update state.cells id (.filled held)
      delivered := (id, held) :: state.delivered } := by
  obtain ⟨own, entered, _⟩ := requests.entered task id known
  have connection := (frames.held task held (by rw [point]; rfl)).2.1
  have other_cells : ∀ other, other ≠ id →
      Function.update state.cells id (.filled held) other = state.cells other :=
    fun other different => Function.update_of_ne different _ _
  refine ⟨?_, ?_, requests.outstanding, ?_, requests.counted, ?_, requests.once⟩
  · intro map other member
    rcases mem_update member with ⟨rfl, kept⟩ | ⟨different, earlier⟩
    · obtain ⟨earlier, different⟩ := List.mem_filter.mp kept
      obtain ⟨here, alone, empty⟩ := requests.entered map other earlier
      exact ⟨here, alone, (other_cells other (by simpa using different)).trans empty⟩
    · exact absurd ((requests.entered map other earlier).1.trans own.symm) different
  · intro call other phase
    have inserting : state.phase = .requesting call other .inserting := phase
    rw [inserting] at entered
    cases entered
  · intro other frame underWay filled
    by_cases same : other = id
    · subst same
      have here : Function.update state.cells other (.filled held) other = .filled held :=
        Function.update_self _ _ _
      obtain rfl := Cell.filled.inj (here.symm.trans filled)
      exact ⟨List.mem_cons_self, connection.trans own⟩
    · obtain ⟨earlier, onConnection⟩ := requests.filled other frame underWay
        ((other_cells other same).symm.trans filled)
      exact ⟨List.mem_cons_of_mem _ earlier, onConnection⟩
  · intro returned member frame got
    obtain ⟨earlier, onConnection⟩ := requests.answered returned member frame got
    exact ⟨List.mem_cons_of_mem _ earlier, onConnection⟩

/-- Clearing a pending map keeps the requests in order. -/
theorem clear_keeps_requests (requests : Requests state) (connection : Nat) :
    Requests (state.clearRequests connection) := by
  have cell : ∀ id, id ∉ state.pending connection →
      (state.clearRequests connection).cells id = state.cells id := fun id absent => if_neg absent
  refine ⟨?_, ?_, requests.outstanding, ?_, requests.counted, requests.answered, requests.once⟩
  · intro map id member
    rcases mem_update member with ⟨_, nothing⟩ | ⟨different, earlier⟩
    · cases nothing
    · obtain ⟨own, entered, empty⟩ := requests.entered map id earlier
      refine ⟨own, entered, (cell id fun there => ?_).trans empty⟩
      exact different (own.trans (requests.entered connection id there).1.symm)
  · intro call id phase
    have inserting : state.phase = .requesting call id .inserting := phase
    refine (cell id fun there => ?_).trans (requests.fresh call id phase)
    have entered := (requests.entered connection id there).2.1
    rw [inserting] at entered
    cases entered
  · intro id frame underWay filled
    refine requests.filled id frame underWay ?_
    rw [← filled]
    refine (cell id fun there => ?_).symm
    have closed : (state.clearRequests connection).cells id = .closed := if_pos there
    exact absurd (closed.symm.trans filled) nofun

/-- A step of a reader keeps the requests in order. -/
theorem reader_keeps_requests (frames : Frames state) (requests : Requests state)
    (stepped : ReaderStep decodeHex state task next) : Requests next := by
  have alone := reader_request_frame stepped
  cases stepped with
  | completes held id point known =>
    exact delivery_keeps_requests frames requests held id point known
  | clears point =>
    exact frame_keeps_requests (clear_keeps_requests requests task)
      ⟨rfl, rfl, rfl, rfl, rfl, rfl, rfl, rfl, fun _ _ => id⟩
  | _ => exact frame_keeps_requests requests (alone rfl rfl rfl)

/-- Between requests, no id is in a pending map. -/
theorem nothing_pending (requests : Requests state) (idle : state.phase.request = none)
    (connection id : Nat) : id ∉ state.pending connection := by
  intro member
  have underWay := request_of_entered (requests.entered connection id member).2.1
  exact absurd (idle.symm.trans underWay) nofun

/-- Beginning a request keeps the requests in order. -/
theorem begin_keeps_requests (requests : Requests state) (idle : state.phase.request = none)
    (call : Call) : Requests (state.beginRequest call) := by
  have empty : (state.beginRequest call).cells state.nextId = .empty := Function.update_self _ _ _
  refine ⟨?_, ?_, ?_, ?_, ?_, requests.answered, requests.once⟩
  · intro connection id member
    exact absurd member (nothing_pending requests idle connection id)
  · intro other id phase
    obtain ⟨_, rfl, _⟩ := Phase.requesting.inj phase
    exact empty
  · intro id underWay
    obtain rfl := Option.some.inj underWay
    refine ⟨Nat.lt_succ_self _, fun returned member => ?_⟩
    exact Nat.ne_of_lt (requests.counted returned member)
  · intro id frame underWay filled
    obtain rfl := Option.some.inj underWay
    exact absurd (empty.symm.trans filled) nofun
  · exact fun returned member => Nat.lt_succ_of_lt (requests.counted returned member)

/-- Entering an id into the pending map keeps the requests in order. -/
theorem insert_keeps_requests (requests : Requests state) (call : Call) (id : Nat)
    (phase : state.phase = .requesting call id .inserting) :
    Requests { state with
      phase := .requesting call id .writing
      pending := Function.update state.pending state.connection
        ((state.pending state.connection).insert id) } := by
  have underWay : state.phase.request = some id := by
    rw [phase]
    rfl
  have nothing : ∀ connection other, other ∉ state.pending connection := by
    intro connection other member
    have entered := (requests.entered connection other member).2.1
    rw [phase] at entered
    cases entered
  refine ⟨?_, nofun, ?_, ?_, requests.counted, requests.answered, requests.once⟩
  · intro connection other member
    rcases mem_update member with ⟨same, inserted⟩ | ⟨_, earlier⟩
    · rcases List.mem_insert_iff.mp inserted with rfl | earlier
      · exact ⟨same, rfl, requests.fresh call _ phase⟩
      · exact absurd earlier (nothing _ _)
    · exact absurd earlier (nothing connection other)
  · intro other same
    obtain rfl := Option.some.inj same
    exact requests.outstanding _ underWay
  · intro other frame same filled
    obtain rfl := Option.some.inj same
    exact requests.filled _ frame underWay filled

/-- The return of a request whose id is in no map keeps the requests in order. -/
theorem finish_keeps_requests (requests : Requests state) {call : Call} {id : Nat} {stage : Stage}
    (result : Option Frame) (phase : state.phase = .requesting call id stage)
    (removed : ∀ connection, id ∉ state.pending connection)
    (got : ∀ frame, result = some frame → state.cells id = .filled frame) :
    Requests (state.finishRequest decodeHex call id result) := by
  have underWay : state.phase.request = some id := by
    rw [phase]
    rfl
  have idle := after_request_idle decodeHex call id result
  obtain ⟨counted, never⟩ := requests.outstanding id underWay
  refine ⟨?_, ?_, ?_, ?_, ?_, ?_, ?_⟩
  · intro connection other member
    have same := request_of_entered (requests.entered connection other member).2.1
    obtain rfl := Option.some.inj (underWay.symm.trans same)
    exact absurd member (removed connection)
  · intro other another inserting
    have none_there : (Phase.requesting other another .inserting).request = none :=
      inserting ▸ idle
    cases none_there
  · exact fun other same => absurd (idle.symm.trans same) nofun
  · exact fun other frame same => absurd (idle.symm.trans same) nofun
  · intro returned member
    rcases List.mem_cons.mp member with rfl | earlier
    · exact counted
    · exact requests.counted returned earlier
  · intro returned member frame same
    rcases List.mem_cons.mp member with rfl | earlier
    · exact requests.filled id frame underWay (got frame same)
    · exact requests.answered returned earlier frame same
  · refine List.nodup_cons.mpr ⟨?_, requests.once⟩
    intro member
    obtain ⟨returned, earlier, same⟩ := List.mem_map.mp member
    exact never returned earlier same

/-- Removing the id of the request under way keeps the requests in order. -/
theorem remove_keeps_requests (requests : Requests state) (connection id : Nat) :
    Requests (state.removeRequest connection id) := by
  refine ⟨?_, requests.fresh, requests.outstanding, requests.filled, requests.counted,
    requests.answered, requests.once⟩
  intro map other member
  rcases mem_update member with ⟨rfl, kept⟩ | ⟨_, earlier⟩
  · exact requests.entered map other (List.mem_of_mem_filter kept)
  · exact requests.entered map other earlier

/-- A step of the client keeps the requests in order. -/
theorem client_keeps_requests (requests : Requests state)
    (stepped : ClientStep decodeHex state next) : Requests next := by
  have idle : ∀ {phase}, state.phase = phase → phase.request = none →
      state.phase.request = none := fun same nothing => same ▸ nothing
  -- Steps between two phases without a request.
  have between : ∀ {next : State}, state.phase.request = none → next.phase.request = none →
      next.pending = state.pending → next.cells = state.cells →
      next.connection = state.connection → next.nextId = state.nextId →
      next.returns = state.returns → next.delivered = state.delivered → Requests next := by
    intro next before after pending cells connection nextId returns delivered
    have no_entry : ∀ {phase : Phase}, phase.request = none → phase.entered = none := by
      intro phase nothing
      by_contra entered
      obtain ⟨id, there⟩ := Option.ne_none_iff_exists'.mp entered
      exact absurd (nothing.symm.trans (request_of_entered there)) nofun
    refine frame_keeps_requests requests ⟨pending, cells, connection, nextId, returns, delivered,
      after.trans before.symm, (no_entry after).trans (no_entry before).symm, ?_⟩
    intro call id inserting
    rw [inserting] at after
    cases after
  cases stepped with
  | raises first phase =>
    exact frame_keeps_requests (begin_keeps_requests requests (idle phase rfl) (.login first))
      ⟨rfl, rfl, rfl, rfl, rfl, rfl, rfl, rfl, fun _ _ => id⟩
  | begins call phase work => exact begin_keeps_requests requests (idle phase rfl) call
  | inserts call id phase => exact insert_keeps_requests requests call id phase
  | goesOn call id before after phase stages =>
    refine frame_keeps_requests requests ⟨rfl, rfl, rfl, rfl, rfl, rfl, ?_, ?_, ?_⟩
    · rw [phase]
      rfl
    · rw [phase]
      rcases stages with ⟨rfl, rfl⟩ | ⟨rfl, rfl⟩ | ⟨rfl, rfl⟩ <;> rfl
    · intro other another inserting
      rcases stages with ⟨rfl, rfl⟩ | ⟨rfl, rfl⟩ | ⟨rfl, rfl⟩ <;> cases inserting
  | removes call id phase =>
    refine finish_keeps_requests (remove_keeps_requests requests state.connection id) none phase
      (fun connection member => ?_) nofun
    rcases mem_update member with ⟨_, kept⟩ | ⟨different, earlier⟩
    · simpa using (List.mem_filter.mp kept).2
    · exact different (requests.entered connection id earlier).1
  | receives call id frame phase answered =>
    refine finish_keeps_requests requests (some frame) phase (fun connection member => ?_) ?_
    · have empty := (requests.entered connection id member).2.2
      exact absurd (empty.symm.trans answered) nofun
    · intro other same
      rw [answered, Option.some.inj same]
  | fails call id phase dropped =>
    refine finish_keeps_requests requests none phase (fun connection member => ?_) nofun
    have empty := (requests.entered connection id member).2.2
    exact absurd (empty.symm.trans dropped) nofun
  | clears phase =>
    refine frame_keeps_requests (clear_keeps_requests requests state.connection)
      ⟨rfl, rfl, rfl, rfl, rfl, rfl, ?_, ?_, nofun⟩
    · exact (idle phase rfl).symm
    · change none = state.phase.entered
      rw [phase]
      rfl
  | dials phase =>
    have nothing := nothing_pending requests (idle phase rfl)
    refine ⟨?_, nofun, nofun, nofun, requests.counted, requests.answered, requests.once⟩
    intro connection id member
    rcases mem_update member with ⟨_, empty⟩ | ⟨_, earlier⟩
    · cases empty
    · exact absurd earlier (nothing connection id)
  | abandons phase => exact between (idle phase rfl) rfl rfl rfl rfl rfl rfl rfl
  | drops task phase started => exact between (idle phase rfl) rfl rfl rfl rfl rfl rfl rfl
  | dropsNothing phase stopped => exact between (idle phase rfl) rfl rfl rfl rfl rfl rfl rfl
  | prefersPush id frame template pushed phase newer =>
    exact between (idle phase rfl) rfl rfl rfl rfl rfl rfl rfl
  | prefersTemplate id frame template phase older =>
    exact between (idle phase rfl) rfl rfl rfl rfl rfl rfl rfl
  | publishes id frame template phase => exact between (idle phase rfl) rfl rfl rfl rfl rfl rfl rfl
  | returns id template job phase => exact between (idle phase rfl) rfl rfl rfl rfl rfl rfl rfl
  | retires phase => exact between (idle phase rfl) rfl rfl rfl rfl rfl rfl rfl
  | disconnects phase => exact between (idle phase rfl) rfl rfl rfl rfl rfl rfl rfl
  | aborts task phase started => exact between (idle phase rfl) rfl rfl rfl rfl rfl rfl rfl
  | abortsNothing phase stopped => exact between (idle phase rfl) rfl rfl rfl rfl rfl rfl rfl
  | joins task phase ended => exact between (idle phase rfl) rfl rfl rfl rfl rfl rfl rfl
  | shutsDown phase => exact between (idle phase rfl) rfl rfl rfl rfl rfl rfl rfl
  | dialFails phase => exact between (idle phase rfl) rfl rfl rfl rfl rfl rfl rfl

/-! ## Every run -/

/-- Frames and requests are in order after every run. -/
theorem run_requests {events : List Event} (ran : client decodeHex events = some state) :
    Tasks state ∧ Frames state ∧ Requests state := by
  refine Runs.run_invariant (fun state => Tasks state ∧ Frames state ∧ Requests state) ?_ ?_ ran
  · rintro state event next ⟨tasks, frames, requests⟩ stepped
    cases event with
    | client event =>
      have taken := client_step_cases stepped
      exact ⟨client_keeps_tasks tasks taken, client_keeps_frames frames taken,
        client_keeps_requests requests taken⟩
    | reader task event =>
      have taken := reader_step_cases stepped
      exact ⟨reader_keeps_tasks tasks taken, reader_keeps_frames tasks frames taken,
        reader_keeps_requests frames requests taken⟩
  · have points : ∀ task, start.readers task = .looping ∨ start.readers task = .finished := by
      intro task
      by_cases same : task = 1
      · subst same
        exact Or.inl rfl
      · exact Or.inr (moved_others (fun _ => .finished) 1 .looping task same)
    refine ⟨start_tasks, ⟨nofun, List.nodup_nil, ?_, ?_, nofun, List.nodup_nil⟩,
      ⟨nofun, nofun, nofun, nofun, nofun, nofun, List.nodup_nil⟩⟩
    · intro task frame held
      rcases points task with looping | finished
      · rw [looping] at held
        cases held
      · rw [finished] at held
        cases held
    · intro task frame id completing
      rcases points task with looping | finished
      · exact absurd (looping.symm.trans completing) nofun
      · exact absurd (finished.symm.trans completing) nofun

/-- A reader delivers frames to the request under way only. -/
theorem delivers_to_current (requests : Requests state)
    (stepped : ReaderStep decodeHex state task next) (delivery : Nat × Frame)
    (member : delivery ∈ next.delivered) :
    delivery ∈ state.delivered ∨ state.phase.request = some delivery.1 := by
  cases stepped with
  | completes held id point known =>
    rcases List.mem_cons.mp member with rfl | earlier
    · exact Or.inr (request_of_entered (requests.entered task id known).2.1)
    · exact Or.inl earlier
  | _ => exact Or.inl member

end

/-- In every run, a request that has returned a value got it from a frame that bears its own id,
    is no job push, and was read from the connection that the request was written to. No frame
    was delivered twice, every delivered frame bears the id of the request that got it, and a
    reader delivers only to the request under way, so nothing reaches a request after it has
    returned, nor a later one in its place. Requests return once, and then their ids are in no
    pending map. The server may answer late, twice or never, and with any identifiers; the
    reader and the client take their steps in any order. -/
theorem requests_matched (decodeHex : String → Option (List UInt8)) (events : List Event)
    (state : State) (ran : client decodeHex events = some state) :
    (∀ returned ∈ state.returns, ∀ frame, returned.result = some frame →
      Answers frame returned.id ∧ frame.connection = returned.connection ∧
        (returned.id, frame) ∈ state.delivered) ∧
    (state.delivered.map fun delivery => delivery.2.serial).Nodup ∧
    (state.frames.map Frame.serial).Nodup ∧
    (∀ delivery ∈ state.delivered, delivery.2 ∈ state.frames ∧ Answers delivery.2 delivery.1) ∧
    (∀ task event next, step decodeHex state (.reader task event) = some next →
      ∀ delivery ∈ next.delivered, delivery ∈ state.delivered ∨
        state.phase.request = some delivery.1) ∧
    (state.returns.map Return.id).Nodup ∧
    ∀ returned ∈ state.returns, state.phase.request ≠ some returned.id ∧
      ∀ connection, returned.id ∉ state.pending connection := by
  obtain ⟨_, frames, requests⟩ := run_requests ran
  have ended : ∀ returned ∈ state.returns, state.phase.request ≠ some returned.id :=
    fun returned member underWay => (requests.outstanding _ underWay).2 returned member rfl
  refine ⟨?_, frames.once, frames.distinct, frames.delivered, ?_, requests.once, ?_⟩
  · intro returned member frame got
    obtain ⟨delivered, connection⟩ := requests.answered returned member frame got
    exact ⟨(frames.delivered _ delivered).2, connection, delivered⟩
  · intro task event next stepped
    exact delivers_to_current requests (reader_step_cases stepped)
  · intro returned member
    refine ⟨ended returned member, fun connection there => ?_⟩
    exact ended returned member (request_of_entered (requests.entered connection _ there).2.1)

/-- A first connect whose login is answered twice, by number and by text. -/
def loginAnsweredTwice : List Event :=
  [.client .flagRaised, .client .requestInserted, .client .requestWritten,
    .reader 1 .generationChecked,
    .reader 1 (.frameRead (some (.object [("id", .unsigned 1), ("result", .string "ok")]))),
    .reader 1 .frameHandled, .reader 1 .responseCompleted, .reader 1 .generationChecked,
    .reader 1 (.frameRead (some (.object [("id", .string "1"), ("result", .string "ok")]))),
    .reader 1 .frameHandled, .reader 1 .responseCompleted, .client .responseReceived]

/-- The second answer finds no entry, and the login has returned with the first. -/
theorem requests_matched_twice :
    ∃ state, client (fun _ => some []) loginAnsweredTwice = some state ∧
      state.frames.length = 2 ∧ state.delivered.length = 1 ∧
      ∀ returned ∈ state.returns, state.phase.request ≠ some returned.id ∧
        ∀ connection, returned.id ∉ state.pending connection :=
  ⟨_, rfl, rfl, rfl,
    (requests_matched (fun _ => some []) loginAnsweredTwice _ rfl).2.2.2.2.2.2⟩

end CuckatooMiner.Stratum
