import Mathlib
import CuckatooMiner.GpuLean
import CuckatooMiner.Foundation.Outcome

/-!
# The schedule of a trimming run

A run trims a graph in rounds on alternating sides, with the engine that its mode and the
round ask for: slean or bucketed rounds first, then either direct rounds in batches or,
for large graphs, fine rounds. The transition to fine rounds moves the live edges from the
bitmap into buckets of an arena and gives up the buffers that only the bitmap rounds need;
on the bucketed path it performs one round on the way. A fine round trims the buckets of
its side and leaves the edges in buckets of the other side. Either it leaves them in
buckets of one fixed capacity, with gaps between them, or without gaps; the last round must
leave no gaps, since the arena is then read from its start.

The engines are parameters: each is a function of the data that it reads, of the side that
the host binds for it, and of the round, which stands for the order of its dispatches. The
device keeps the bitmap of live edges, the buffers that were given up and a history of what
was done. A submission that binds a buffer that was given up fails. The run is not
cancelled, and diagnostics are off.
-/

namespace CuckatooMiner

/-- A run with its thresholds. -/
structure TrimRun where
  edgeBits : Nat
  rounds : Nat
  liveWork : Bool
  productionFine : Bool
  productionSlean : Bool
  productionBucketedMark : Bool
  bucketRounds : Nat
  fineTransitionRound : Nat
  fineEndRound : Nat
  shardedFineSeed : Bool
deriving DecidableEq, Repr

namespace TrimRun

open GpuLean (asU32 GraphSize readBitmapSurvivors)
open LeanRound (Bitmap)

/-! ## Arenas -/

/-- Live edges in buckets: the number of edges of each bucket and of all, the start of each
    bucket, and the words of the arena. -/
structure FineCsrArena where
  counts : List Nat
  survivorCount : Nat
  offsets : List Nat
  arena : List Nat
deriving DecidableEq, Repr

/-- Buckets of a fine arena. -/
def fineBuckets : Nat := 32768

/-- The fine bucket of a node: its leading fifteen bits. -/
def fineBucket (edgeBits node : Nat) : Nat := node >>> (edgeBits - 15)

/-- The edges of a bucket. -/
def FineCsrArena.bucket (arena : FineCsrArena) (bucket : Nat) : List Nat :=
  (arena.arena.drop (arena.offsets.getD bucket 0)).take (arena.counts.getD bucket 0)

/-- Read the survivors from the start of an arena. -/
def readFineSurvivors (arena : FineCsrArena) : List Nat :=
  if arena.survivorCount = 0 then [] else arena.arena.take arena.survivorCount

/-! ## Engines -/

/-- What performs rounds, by round and side. Fixed-capacity rounds may refuse. -/
structure Engines where
  initializeEdges : Bitmap
  sleanDenseRound : Nat → Nat → Bitmap → Bitmap
  bucketRound : Nat → Nat → Bitmap → Bitmap
  leanRound : Nat → Nat → Bitmap → Bitmap
  buildFineCsr : Nat → Nat → Bitmap → FineCsrArena
  buildShardedFineSeedAndTrim : Nat → Nat → Bitmap → FineCsrArena
  trimFineFixedOnce : Nat → Nat → FineCsrArena → Option FineCsrArena
  trimFineCsrOnce : Nat → Nat → FineCsrArena → FineCsrArena

/-- The kinds of rounds. -/
inductive Engine
  | slean
  | bucketed
  | lean
  | sharded
  | fineFixed
  | fineCsr
deriving DecidableEq, Repr

/-! ## The device -/

/-- The buffers of a run. -/
inductive Buffer
  | edges
  | nodes
  | edgeBackup
  | bucketScratch
  | sleanSecond
  | sleanThird
  | sleanFourth
  | sleanDead
  | fineScratch
  | fineDummy
deriving DecidableEq, Repr

/-- What happened in a run: a round, the arena that a fine round was given, the transition
    to fine rounds, and the arena that was read at the end. -/
inductive Event
  | ran (engine : Engine) (round side : Nat)
  | given (round side : Nat) (arena : FineCsrArena)
  | transition (completedRound : Nat)
  | read (arena : FineCsrArena)
deriving DecidableEq, Repr

/-- The bitmap of live edges, the buffers given up, and what happened. -/
structure Device where
  edges : Bitmap
  destroyed : List Buffer
  history : List Event

/-- Why a run does not return: a submission bound a buffer that was given up, or the given
    turns did not suffice. -/
inductive Fault
  | destroyed (buffer : Buffer)
  | unfinished
deriving DecidableEq, Repr

namespace Device

/-- Submit work that binds some buffers. -/
def submit (buffers : List Buffer) (device : Device) : Except Fault Device :=
  match buffers.find? fun buffer => decide (buffer ∈ device.destroyed) with
  | some buffer => .error (.destroyed buffer)
  | none => .ok device

/-- Give up some buffers. -/
def destroy (buffers : List Buffer) (device : Device) : Device :=
  { device with destroyed := device.destroyed ++ buffers }

/-- Note an event. -/
def note (event : Event) (device : Device) : Device :=
  { device with history := device.history ++ [event] }

/-- A round has left a bitmap. -/
def ran (engine : Engine) (round side : Nat) (edges : Bitmap) (device : Device) : Device :=
  ({ device with edges := edges } : Device).note (.ran engine round side)

end Device

/-- The buffers bound for direct and bucketed rounds. -/
def leanGroup : List Buffer := [.edges, .nodes, .bucketScratch]

/-- The buffers bound while an arena is filled from the bitmap. -/
def fineSeedGroup : List Buffer := [.edges, .fineDummy, .fineScratch]

/-- The buffers bound for fine rounds. -/
def fineTrimGroup : List Buffer := [.fineDummy, .fineDummy, .fineScratch]

/-- The buffers bound for the parts of slean rounds. -/
def sleanGroup : List Buffer :=
  [.edges, .nodes, .bucketScratch, .sleanSecond, .sleanDead, .sleanThird, .sleanFourth]

/-- The buffers that fine rounds do without. -/
def givenUp : List Buffer :=
  [.bucketScratch, .sleanSecond, .sleanThird, .sleanFourth, .sleanDead, .nodes, .edgeBackup]

/-! ## The plan of a run -/

/-- Rounds between two submissions. -/
def roundsPerSubmission : Nat := 16

/-- Bucketed rounds where no fine rounds follow. -/
def bucketedMarkRounds : Nat := 4

/-- The smallest graph that is trimmed in buckets. -/
def bucketedMarkMinEdgeBits : Nat := 24

/-- How the caller wants edges to be marked. -/
structure TrimOptions where
  bucketedMark : Bool
  slean : Bool
deriving DecidableEq, Repr

/-- The modes of a run. -/
structure PreparedTrim where
  rounds : Nat
  productionFine : Bool
  productionSlean : Bool
  productionBucketedMark : Bool
deriving DecidableEq, Repr

/-- Choose the modes. -/
def prepareTrim (edgeBits requestedRounds : Nat) (options : TrimOptions) : PreparedTrim :=
  let productionFine := options.bucketedMark && decide (edgeBits ≥ bucketedMarkMinEdgeBits)
    && decide (requestedRounds > bucketedMarkRounds)
  let productionBucketedMark :=
    options.bucketedMark && decide (edgeBits ≥ bucketedMarkMinEdgeBits)
  let productionSlean := options.slean && productionBucketedMark
  ⟨requestedRounds, productionFine, productionSlean, productionBucketedMark⟩

/-- Choose the thresholds. -/
def PreparedTrim.trimRun (prepared : PreparedTrim) (edgeBits : Nat) (liveWork : Bool) : TrimRun :=
  let fineTransitionRound :=
    if prepared.productionFine then if prepared.productionSlean then 3 else 2 else 6
  let bucketRounds :=
    if prepared.productionFine then
      if prepared.productionSlean then 3 else fineTransitionRound
    else bucketedMarkRounds
  { edgeBits := edgeBits
    rounds := prepared.rounds
    liveWork := liveWork
    productionFine := prepared.productionFine
    productionSlean := prepared.productionSlean
    productionBucketedMark := prepared.productionBucketedMark
    bucketRounds := bucketRounds
    fineTransitionRound := fineTransitionRound
    fineEndRound := if prepared.productionFine then prepared.rounds else 64
    shardedFineSeed := prepared.productionFine && decide (fineTransitionRound = 2) }

/-! ## The run -/

section Run

variable (engines : Engines)

/-- One slean round. -/
def runDenseRound (round : Nat) (device : Device) : Except Fault Device := do
  let side := round &&& 1
  let device ← device.submit (sleanGroup ++ .edgeBackup :: leanGroup)
  return device.ran .slean round side (engines.sleanDenseRound round side device.edges)

/-- One bucketed round. -/
def runBucketRound (round : Nat) (device : Device) : Except Fault Device := do
  let side := round &&& 1
  let device ← device.submit leanGroup
  return device.ran .bucketed round side (engines.bucketRound round side device.edges)

/-- The direct rounds of a range. -/
def encodeLeanRounds (first last : Nat) (device : Device) : Except Fault Device :=
  (List.range' first (last - first)).foldlM (fun device round => do
    let side := round &&& 1
    let device ← device.submit leanGroup
    return device.ran .lean round side (engines.leanRound round side device.edges)) device

/-- A batch of direct rounds, and the round after it. -/
def runLeanBatch (firstRound rounds : Nat) (oneRoundAtATime : Bool) (device : Device) :
    Except Fault (Nat × Device) := do
  let batchSize := if oneRoundAtATime then 1 else roundsPerSubmission
  let batchEnd := min (asU32 (firstRound + batchSize)) rounds
  let device ← encodeLeanRounds engines firstRound batchEnd device
  return (batchEnd, device)

/-- Fill an arena from the bitmap, on the bucketed path with one round on the way, and
    give up the buffers that are no longer needed. The next round is returned with it. -/
def buildFineTransitionSeed (shardedSeed : Bool) (completedRound : Nat) (device : Device) :
    Except Fault (FineCsrArena × Nat × Device) := do
  let device := device.destroy givenUp
  let device ← device.submit fineSeedGroup
  let side := completedRound &&& 1
  let device ← device.submit fineSeedGroup
  if shardedSeed then
    let arena := engines.buildShardedFineSeedAndTrim completedRound side device.edges
    return (arena, completedRound + 1,
      (device.note (.ran .sharded completedRound side)).destroy [.edges])
  else
    let arena := engines.buildFineCsr completedRound side device.edges
    return (arena, completedRound, device.destroy [.edges])

/-- One fine round: with buckets of fixed capacity unless it is the last one or they are
    refused. -/
def fineRound (endRound round : Nat) (arena : FineCsrArena) (device : Device) :
    Except Fault (FineCsrArena × Device) := do
  let side := round &&& 1
  let device := device.note (.given round side arena)
  let device ← device.submit fineTrimGroup
  let compact := engines.trimFineCsrOnce round side arena
  if round + 1 < endRound then
    match engines.trimFineFixedOnce round side arena with
    | some next => return (next, device.note (.ran .fineFixed round side))
    | none => return (compact, device.note (.ran .fineCsr round side))
  else return (compact, device.note (.ran .fineCsr round side))

/-- The fine rounds. -/
def runFineRounds (startRound endRound : Nat) (arena : FineCsrArena) (device : Device) :
    Except Fault (FineCsrArena × Device) :=
  (List.range' startRound (endRound - startRound)).foldlM
    (fun (arena, device) round => fineRound engines endRound round arena device) (arena, device)

/-- The transition, the fine rounds and the readback. -/
def runFineTransition (completedRound endRound : Nat) (shardedSeed : Bool) (device : Device) :
    Except Fault (List Nat × Device) := do
  let device := device.note (.transition completedRound)
  let (arena, loopStart, device) ←
    buildFineTransitionSeed engines shardedSeed completedRound device
  let (arena, device) ← runFineRounds engines loopStart endRound arena device
  return (readFineSurvivors arena, device.note (.read arena))

variable (run : TrimRun)

/-- After some rounds: the fine rounds and their survivors, if it is time for them. -/
def reportRound (completedRound : Nat) (device : Device) :
    Except Fault (Option (List Nat) × Device) :=
  if run.productionFine ∧ completedRound = run.fineTransitionRound
      ∧ completedRound < run.fineEndRound then do
    let (survivors, device) ←
      runFineTransition engines completedRound run.fineEndRound run.shardedFineSeed device
    return (some survivors, device)
  else return (none, device)

/-- The next rounds in the bitmap, and the round after them. -/
def bitmapRounds (round : Nat) (device : Device) : Except Fault (Nat × Device) :=
  if run.productionSlean ∧ round < run.bucketRounds then do
    let device ← runDenseRound engines round device
    return (round + 1, device)
  else if run.productionBucketedMark ∧ ¬run.productionSlean ∧ round < run.bucketRounds then do
    let device ← runBucketRound engines round device
    return (round + 1, device)
  else runLeanBatch engines round run.rounds run.liveWork device

/-- Rounds until all are done, if the given turns suffice. -/
def runRounds : Nat → Nat → Device → Except Fault (List Nat × Device)
  | 0, _, _ => .error .unfinished
  | turns + 1, round, device =>
      if round < run.rounds then do
        let (round, device) ← bitmapRounds engines run round device
        let (survivors, device) ← reportRound engines run round device
        match survivors with
        | some survivors => return (survivors, device)
        | none => runRounds turns round device
      else do
        let device ← device.submit [.edges]
        return (readBitmapSurvivors (GraphSize.new run.edgeBits).edgeCount device.edges, device)

end Run

/-- Prepare and execute a run. What the rounds do to the edges is a parameter; only the choice
    of the rounds and the use of the buffers are modelled here. -/
def trimWithMarkMode (engines : Engines) (edgeBits rounds : Nat) (liveWork : Bool)
    (options : TrimOptions) (turns : Nat) : Except Fault (List Nat × Device) :=
  let run := (prepareTrim edgeBits rounds options).trimRun edgeBits liveWork
  runRounds engines run turns 0 ⟨engines.initializeEdges, [], []⟩

end TrimRun

end CuckatooMiner
