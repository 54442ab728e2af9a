import Mathlib
import CuckatooMiner.FineSeed
import CuckatooMiner.SleanSeen
import CuckatooMiner.TrimEngines
import CuckatooMiner.Foundation.Polling

/-!
# The trim of the GPU solver

The schedule of a trimming run with the kernels in place of engines: the sizes of the
buffers are chosen by the limits of the adapter, slean and bucketed rounds are dispatched
part by part and chunk by chunk, and the fine rounds allocate the arenas that the counters
ask for. Between the parts the run reads the cancel flag.

The orders of the threads of all dispatches are open, and so is what the other buffers hold
before each round in the bitmap; only their sizes are given. A submission that binds a
buffer that was given up fails. If the fine rounds are cancelled, the transition reports
nothing and the run goes on with its next round, which reads the flag first. Diagnostics
are off. Nothing is said of time, and the texts of quotients of bytes are parameters.
-/

namespace CuckatooMiner.WgpuTrim

open Polling Reservation
open Bucketed (groupsForWords)
open FineRound (CsrOrders ShardOrders)
open FineSeed (SeedOrders)
open GpuLean (GraphSize Params asU32 leanTrimRound readBitmapSurvivors)
open LeanRound (Bitmap)
open SleanLayout (GpuWgpuSolver HostSizing sleanSizing)
open Solver (GraphParams SolveError)
open TrimRun (Buffer FineCsrArena PreparedTrim TrimOptions fineSeedGroup fineTrimGroup givenUp
  leanGroup readFineSurvivors roundsPerSubmission sleanGroup)

/-- Why a run fails: with an error of the solver, since a submission bound a buffer that was
    given up, since the given turns did not suffice, or since a count of the peeler dropped below
    zero. -/
inductive Fault
  | solver (error : SolveError)
  | destroyed (buffer : Buffer)
  | unfinished
  | underflow
deriving DecidableEq, Repr

/-- What a solver knows of its adapter besides the limits, and the text of a number of
    gibibytes. -/
structure Adapter where
  name : String
  gib : Nat → String

/-- What the buffers besides the edges hold before a round. -/
structure Leftover (edgeBits : Nat) where
  nodes : Bitmap
  scratch : Memory Nat
  arenas : Slean.Arenas
  dead : Slean.DeadScratch
  nodes_sized : nodes.length = (GraphSize.new edgeBits).wordCount

/-- What is open in a run: the orders of all dispatches, by round, and what the buffers hold
    before each round. -/
structure World (edgeBits : Nat) where
  initial : Schedule
  slean : Nat → Slean.Orders
  bucketed : Nat → Bucketed.RoundSchedule
  direct : Nat → GpuLean.RoundSchedule
  alive : Schedule
  seed : SeedOrders
  shards : ShardOrders
  fixed : Nat → Schedule
  csr : Nat → CsrOrders
  leftover : Nat → Leftover edgeBits

/-! ## Preparing a run -/

section

variable (solver : GpuWgpuSolver) (adapter : Adapter)

/-- Refuse what is no graph, and bitmaps that the adapter cannot hold or bind. -/
def graphSizeNew (request : GraphParams) : Except SolveError Unit :=
  let bytes := SleanLayout.bitmapBytes request.edgeBits
  if request.edgeBits = 0 ∨ request.edgeBits > 32 then
    .error (.invalidConfig "edge_bits must be in 1..=32")
  else if request.cycleLength = 0 ∨ request.cycleLength % 2 ≠ 0 then
    .error (.invalidConfig "cycle_length must be positive and even")
  else if bytes > solver.limits.maxBufferSize ∨
      bytes > solver.limits.maxStorageBufferBindingSize then
    .error (.unsupported (adapter.name ++ " exposes max storage buffer " ++
      toString (solver.limits.maxStorageBufferBindingSize / (1024 * 1024)) ++ " MiB, but C" ++
      toString request.edgeBits ++ " needs " ++ toString (bytes / (1024 * 1024)) ++
      " MiB per bitmap"))
  else .ok ()

/-- A prepared run: its thresholds and the sizes of its slean rounds. -/
structure Prepared where
  run : TrimRun
  sizing : HostSizing
deriving DecidableEq, Repr

/-- Choose the modes and the sizes of the buffers, or refuse. -/
def prepareTrim (request : GraphParams) (requestedRounds : Nat) (liveWork : Bool)
    (options : TrimOptions) : Except SolveError Prepared := do
  graphSizeNew solver adapter request
  let modes := TrimRun.prepareTrim request.edgeBits requestedRounds options
  let sizing ← sleanSizing solver modes.productionSlean request.edgeBits
  let _ ← Bucketed.bucketScratchSize adapter.name
    ⟨solver.limits.maxBufferSize, solver.limits.maxStorageBufferBindingSize⟩ request.edgeBits
    ⟨false, 0, modes.productionBucketedMark, modes.productionSlean, sizing.scratchBytes⟩
  return ⟨modes.trimRun request.edgeBits liveWork, sizing⟩

end

/-! ## The device -/

/-- The bitmap of live edges and the buffers that were given up. -/
structure Device where
  edges : Bitmap
  destroyed : List Buffer

/-- Submit work that binds some buffers. -/
def Device.submit (buffers : List Buffer) (device : Device) : Except Fault PUnit :=
  match buffers.find? fun buffer => decide (buffer ∈ device.destroyed) with
  | some buffer => .error (.destroyed buffer)
  | none => .ok PUnit.unit

/-- Give up some buffers. -/
def Device.destroy (buffers : List Buffer) (device : Device) : Device :=
  { device with destroyed := device.destroyed ++ buffers }

/-! ## Rounds in the bitmap -/

section Rounds

variable (solver : GpuWgpuSolver) (adapter : Adapter) (endpoints : Nat → Nat → Nat)
  {edgeBits : Nat} (world : World edgeBits)

/-- A direct round. -/
def directRound (round side : Nat) (edges : Bitmap) : Bitmap :=
  (leanTrimRound (endpoints side) (Params.new edgeBits) (groupsForWords edgeBits)
    (world.direct round) ⟨edges, (world.leftover round).nodes⟩).edges

section Slean

variable (sizing : HostSizing) (round side : Nat)

/-- Scatter a part and, unless it is the last, mark its nodes. -/
def sleanMarkPart (buffers : Slean.Buffers) (part : Nat) : Slean.Buffers :=
  (SleanSeen.markPart solver edgeBits sizing (endpoints side) (world.slean round)
    (decide (round = 0)) ⟨buffers, []⟩ part).buffers

/-- Trim the resident last part. -/
def sleanTrimLastPart (buffers : Slean.Buffers) : Slean.Buffers :=
  (SleanSeen.trimLastPart solver edgeBits sizing (endpoints side) (world.slean round)
    ⟨buffers, []⟩).buffers

/-- Scatter an earlier part again and trim it. -/
def sleanTrimPart (buffers : Slean.Buffers) (part : Nat) : Slean.Buffers :=
  (SleanSeen.trimPart solver edgeBits sizing (endpoints side) (world.slean round)
    (decide (round = 0)) ⟨buffers, []⟩ part).buffers

/-- Clear the headers and mark part by part. -/
def runSleanMarkPhase (buffers : Slean.Buffers) : Task Fault Slean.Buffers :=
  let headerWords := sizing.bucketCount / 4 + 1
  let deadHeaderWords := sizing.deadBucketCount + 1
  Task.turns (sleanMarkPart solver endpoints world sizing round side) (List.range sizing.parts)
    { buffers with
      nodes := List.replicate (SleanLayout.wordCount edgeBits) 0#32
      arenas := Slean.clearArenas headerWords buffers.arenas
      dead := Slean.clearWords deadHeaderWords buffers.dead }

/-- Back the edges up and trim all parts, the last one first. -/
def runSleanTrimPhase (buffers : Slean.Buffers) : Task Fault Slean.Buffers :=
  Task.turns (sleanTrimPart solver endpoints world sizing round side)
    (List.range (sizing.parts - 1))
    (sleanTrimLastPart solver endpoints world sizing round side
      { buffers with backup := buffers.edges })

/-- The overflow counters read back after a round. -/
def overflowReadback (buffers : Slean.Buffers) : Nat :=
  let countsWords := sizing.bucketCount / 4
  [buffers.arenas.read (0, countsWords), buffers.arenas.read (1, countsWords),
    buffers.arenas.read (2, countsWords), buffers.arenas.read (3, countsWords),
    buffers.dead.read sizing.deadBucketCount].foldl Slean.saturatingAdd 0

/-- Repeat the round directly from the backup if anything overflowed. -/
def finishBucketRound (overflow : Nat) (buffers : Slean.Buffers) : Bitmap :=
  if overflow = 0 then buffers.edges else directRound endpoints world round side buffers.backup

/-- One slean round. -/
def runSleanDenseRound (edges : Bitmap) : Task Fault Bitmap := do
  let left := world.leftover round
  let marked ← runSleanMarkPhase solver endpoints world sizing round side
    ⟨edges, left.nodes, [], left.arenas, left.dead⟩
  let trimmed ← runSleanTrimPhase solver endpoints world sizing round side marked
  return finishBucketRound endpoints world round side (overflowReadback sizing trimmed) trimmed

end Slean

section Bucketed

variable (round side : Nat)

/-- Clear the nodes and the counters, and mark chunk by chunk. -/
def markBucketRound (buffers : Bucketed.Buffers) : Task Fault Bucketed.Buffers :=
  Task.turns (fun buffers chunk => Bucketed.markChunk Bucketed.bucketConfigCapacity (endpoints side)
      edgeBits round ((world.bucketed round).mark chunk) chunk buffers)
    (List.range (Bucketed.chunkCount edgeBits)) (Bucketed.clearBuffers buffers)

/-- Trim chunk by chunk, or directly when some bucket was too small. -/
def trimBucketRound (buffers : Bucketed.Buffers) : Task Fault Bucketed.Buffers := do
  let buffers ← Task.turns (fun buffers chunk => Bucketed.trimChunk Bucketed.bucketConfigCapacity
      (endpoints side) edgeBits round ((world.bucketed round).trim chunk) chunk buffers)
    (List.range (Bucketed.chunkCount edgeBits)) buffers
  let overflow := buffers.scratch.read Bucketed.diagnosticBucketOverflowWord
  if overflow ≠ 0 then
    return Bucketed.directFallback (endpoints side) edgeBits (groupsForWords edgeBits)
      (world.bucketed round).fallback buffers
  else return buffers

/-- One bucketed round. -/
def runBucketRound (edges : Bitmap) : Task Fault Bitmap := do
  let left := world.leftover round
  let marked ← markBucketRound endpoints world round side ⟨edges, left.nodes, left.scratch⟩
  let trimmed ← trimBucketRound endpoints world round side marked
  return trimmed.edges

end Bucketed

/-- The direct rounds of a range. -/
def encodeLeanRounds (first last : Nat) (edges : Bitmap) : Bitmap :=
  (List.range' first (last - first)).foldl
    (fun edges round => directRound endpoints world round (round &&& 1) edges) edges

/-- A batch of direct rounds, and the round after it. -/
def runLeanBatch (firstRound rounds : Nat) (oneRoundAtATime : Bool) (edges : Bitmap) :
    Nat × Bitmap :=
  let batchSize := if oneRoundAtATime then 1 else roundsPerSubmission
  let batchEnd := min (asU32 (firstRound + batchSize)) rounds
  (batchEnd, encodeLeanRounds endpoints world firstRound batchEnd edges)

/-! ## Fine rounds -/

/-- Fill an arena from the bitmap, on the bucketed path with one round on the way, and give
    up the buffers that are no longer needed. The next round is returned with it. -/
def buildFineTransitionSeed (shardedSeed : Bool) (completedRound : Nat) (device : Device) :
    Except Fault (FineCsrArena × Nat × Device) := do
  let device := device.destroy givenUp
  device.submit fineSeedGroup
  let survivors := FineSeed.countAliveEdges (Params.new edgeBits) (groupsForWords edgeBits)
    device.edges world.alive
  let side := completedRound &&& 1
  device.submit fineSeedGroup
  if shardedSeed then
    let (arena, _) ← (FineRound.buildShardedFineSeedAndTrim solver.limits adapter.gib endpoints
      edgeBits side world.shards survivors device.edges).mapError .solver
    return (arena, completedRound + 1, device.destroy [.edges])
  else
    let (arena, _) ← (FineSeed.buildFineCsr solver.limits adapter.gib endpoints edgeBits side
      world.seed survivors device.edges).mapError .solver
    return (arena, completedRound, device.destroy [.edges])

/-- One fine round: with buckets of fixed capacity unless it is the last one or they are
    refused. -/
def fineRound (endRound round : Nat) (device : Device) (arena : FineCsrArena) :
    Except Fault FineCsrArena := do
  let side := round &&& 1
  device.submit fineTrimGroup
  if round + 1 < endRound then
    let (next, _) ← (FineRound.trimFineRound solver.limits adapter.gib endpoints edgeBits side
      (world.fixed round) (world.csr round) arena).mapError .solver
    return next
  else
    let (next, _) ← (FineRound.trimFineCsrOnce solver.limits adapter.gib endpoints edgeBits side
      (world.csr round) arena).mapError .solver
    return next

/-- The fine rounds. -/
def runFineRounds (startRound endRound : Nat) (device : Device) (arena : FineCsrArena) :
    Task Fault FineCsrArena :=
  (List.range' startRound (endRound - startRound)).foldlM (fun arena round => do
    .stopIfRaised
    Task.step (fineRound solver adapter endpoints world endRound round device arena)) arena

/-- The transition, the fine rounds and the readback. Cancelled fine rounds have no
    survivors. -/
def runFineTransition (completedRound endRound : Nat) (shardedSeed : Bool) (device : Device) :
    Task Fault (Option (List Nat) × Device) := do
  let (arena, loopStart, device) ← Task.step
    (buildFineTransitionSeed solver adapter endpoints world shardedSeed completedRound device)
  match ← (runFineRounds solver adapter endpoints world loopStart endRound device arena).resumed with
  | none => return (none, device)
  | some arena => return (some (readFineSurvivors arena), device)

/-! ## The run -/

variable (prepared : Prepared)

/-- After some rounds: the fine rounds and their survivors, if it is time for them. -/
def reportRound (completedRound : Nat) (device : Device) : Task Fault (Option (List Nat) × Device) :=
  if prepared.run.productionFine ∧ completedRound = prepared.run.fineTransitionRound
      ∧ completedRound < prepared.run.fineEndRound then
    runFineTransition solver adapter endpoints world completedRound prepared.run.fineEndRound
      prepared.run.shardedFineSeed device
  else return (none, device)

/-- The next rounds in the bitmap, and the round after them. -/
def bitmapRounds (round : Nat) (device : Device) : Task Fault (Nat × Device) :=
  let side := round &&& 1
  if prepared.run.productionSlean ∧ round < prepared.run.bucketRounds then do
    Task.step (device.submit (sleanGroup ++ .edgeBackup :: leanGroup))
    let edges ← runSleanDenseRound solver endpoints world prepared.sizing round side device.edges
    return (round + 1, { device with edges := edges })
  else if prepared.run.productionBucketedMark ∧ ¬prepared.run.productionSlean
      ∧ round < prepared.run.bucketRounds then do
    Task.step (device.submit leanGroup)
    let edges ← runBucketRound endpoints world round side device.edges
    return (round + 1, { device with edges := edges })
  else do
    Task.step (device.submit leanGroup)
    let (next, edges) :=
      runLeanBatch endpoints world round prepared.run.rounds prepared.run.liveWork device.edges
    return (next, { device with edges := edges })

/-- Rounds until all are done, if the given turns suffice. -/
def runRounds : Nat → Nat → Device → Task Fault (List Nat)
  | 0, _, _ => Task.step (.error .unfinished)
  | turns + 1, round, device =>
      if round < prepared.run.rounds then do
        .stopIfRaised
        let (round, device) ← bitmapRounds solver endpoints world prepared round device
        .stopIfRaised
        let (survivors, device) ← reportRound solver adapter endpoints world prepared round device
        match survivors with
        | some survivors => return survivors
        | none => runRounds turns round device
      else do
        Task.step (device.submit [.edges])
        return readBitmapSurvivors (GraphSize.new edgeBits).edgeCount device.edges

/-- Set all edges. -/
def initializeEdges : Bitmap :=
  GpuLean.initEdges (Params.new edgeBits) (groupsForWords edgeBits) world.initial
    (LeanRound.clearNodes (GraphSize.new edgeBits).wordCount)

end Rounds

/-- Prepare and execute a run. Failures of the device itself, such as a lost adapter, are left
    out. -/
def trimWithMarkMode (solver : GpuWgpuSolver) (adapter : Adapter) (endpoints : Nat → Nat → Nat)
    (request : GraphParams) (world : World request.edgeBits) (rounds : Nat) (liveWork : Bool)
    (options : TrimOptions) (turns : Nat) : Task Fault (List Nat) := do
  let prepared ← Task.step ((prepareTrim solver adapter request rounds liveWork options).mapError
    .solver)
  runRounds solver adapter endpoints world prepared turns 0 ⟨initializeEdges world, []⟩

/-- What the settings of a solver ask of its trims. -/
def trimOptions (solver : GpuWgpuSolver) : TrimOptions :=
  let useSlean := decide (solver.config.trimming = .slean ∨ solver.config.trimming = .auto)
  ⟨true, useSlean⟩

/-- Trim as the settings of the solver ask for. -/
def trim (solver : GpuWgpuSolver) (adapter : Adapter) (endpoints : Nat → Nat → Nat)
    (request : GraphParams) (world : World request.edgeBits) (rounds : Nat) (liveWork : Bool)
    (turns : Nat) : Task Fault (List Nat) :=
  trimWithMarkMode solver adapter endpoints request world rounds liveWork (trimOptions solver) turns

end CuckatooMiner.WgpuTrim
