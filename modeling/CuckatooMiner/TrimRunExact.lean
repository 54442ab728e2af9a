import Mathlib
import CuckatooMiner.TrimRun
import CuckatooMiner.Foundation.Segments

/-!
# A trimming run performs every round once

If each engine performs the round it is asked for, a run performs all rounds in order, each
on its side. A run in the bitmap keeps the edges that survive the rounds so far; after the
transition the arena holds them in buckets of the side of the next round, and no later work
binds a buffer that was given up. The last fine round leaves an arena without gaps, so that
reading it from its start lists exactly the survivors.

One step of the schedule counts in thirty-two bits without a check: a batch of sixteen
direct rounds that ends beyond these numbers ends at zero, and the run starts over.
-/

namespace CuckatooMiner.TrimRun

open Outcome Pruning Segments TwoCore
open GpuLean (asU32 GraphSize readBitmapSurvivors liveEdges Mates)
open LeanRound (Bitmap)

/-! ## What engines are asked for -/

/-- An arena holds some edges in buckets of a side. The ranges may leave gaps, and their order
    inside a bucket is open. -/
structure Holds (endpoints : Nat → Nat → Nat) (edgeBits side : Nat) (live : Set Nat)
    (arena : FineCsrArena) : Prop where
  buckets : arena.counts.length = fineBuckets
  total : arena.survivorCount = arena.counts.sum
  unique : ∀ bucket < fineBuckets, (arena.bucket bucket).Nodup
  members : ∀ bucket < fineBuckets, ∀ edge, edge ∈ arena.bucket bucket ↔
    edge ∈ live ∧ fineBucket edgeBits (endpoints side edge) = bucket

/-- An arena has no gaps between its buckets. -/
def Compact (arena : FineCsrArena) : Prop :=
  ∀ bucket < fineBuckets, arena.offsets.getD bucket 0 = (arena.counts.take bucket).sum

/-- A bitmap of the size of the graph. -/
def Sized (edgeBits : Nat) (edges : Bitmap) : Prop :=
  edges.length = (GraphSize.new edgeBits).wordCount

/-- A round on a side leads from one bitmap to another. The order of the threads and the words
    beyond the graph are left out. -/
def Trims (endpoints : Nat → Nat → Nat) (edgeBits side : Nat) (before after : Bitmap) : Prop :=
  Sized edgeBits after ∧ liveEdges after = trimSide (Mates endpoints) side (liveEdges before)

/-- Every engine performs the round it is asked for. Slean and bucketed rounds take round zero
    to start with all edges. It says what the engines return, not how: no kernel, order or
    buffer appears in it. -/
structure Performs (endpoints : Nat → Nat → Nat) (edgeBits : Nat) (engines : Engines) : Prop where
  initializeEdges : Sized edgeBits engines.initializeEdges ∧
    liveEdges engines.initializeEdges = graph edgeBits
  sleanDenseRound : ∀ round side edges, Sized edgeBits edges →
    (round = 0 → liveEdges edges = graph edgeBits) →
    Trims endpoints edgeBits side edges (engines.sleanDenseRound round side edges)
  bucketRound : ∀ round side edges, Sized edgeBits edges →
    (round = 0 → liveEdges edges = graph edgeBits) →
    Trims endpoints edgeBits side edges (engines.bucketRound round side edges)
  leanRound : ∀ round side edges, Sized edgeBits edges →
    Trims endpoints edgeBits side edges (engines.leanRound round side edges)
  buildFineCsr : ∀ round side edges, Sized edgeBits edges →
    Holds endpoints edgeBits side (liveEdges edges) (engines.buildFineCsr round side edges) ∧
      Compact (engines.buildFineCsr round side edges)
  buildShardedFineSeedAndTrim : ∀ round side edges, side < 2 → Sized edgeBits edges →
    Holds endpoints edgeBits (1 - side) (trimSide (Mates endpoints) side (liveEdges edges))
        (engines.buildShardedFineSeedAndTrim round side edges) ∧
      Compact (engines.buildShardedFineSeedAndTrim round side edges)
  trimFineFixedOnce : ∀ round side live arena next, side < 2 → live ⊆ graph edgeBits →
    Holds endpoints edgeBits side live arena →
    engines.trimFineFixedOnce round side arena = some next →
    Holds endpoints edgeBits (1 - side) (trimSide (Mates endpoints) side live) next
  trimFineCsrOnce : ∀ round side live arena, side < 2 → live ⊆ graph edgeBits →
    Holds endpoints edgeBits side live arena →
    Holds endpoints edgeBits (1 - side) (trimSide (Mates endpoints) side live)
        (engines.trimFineCsrOnce round side arena) ∧
      Compact (engines.trimFineCsrOnce round side arena)

/-! ## Reading an arena -/

section Arena

variable {endpoints : Nat → Nat → Nat} {edgeBits side : Nat} {live : Set Nat} {arena : FineCsrArena}

/-- A node of the graph has one of the fine buckets. -/
theorem fine_bucket_lt (edgeBits node : Nat) (inGraph : node < 2 ^ edgeBits) :
    fineBucket edgeBits node < fineBuckets := by
  rw [fineBucket, Nat.shiftRight_eq_div_pow, Nat.div_lt_iff_lt_mul (Nat.two_pow_pos _)]
  calc node < 2 ^ edgeBits := inGraph
    _ ≤ 2 ^ (15 + (edgeBits - 15)) := Nat.pow_le_pow_right (by decide) (by omega)
    _ = fineBuckets * 2 ^ (edgeBits - 15) := by rw [Nat.pow_add]; rfl

/-- The start of an arena without gaps is the list of its first buckets. -/
theorem compact_take (holds : Holds endpoints edgeBits side live arena) (compact : Compact arena)
    (buckets : Nat) (some_buckets : buckets ≤ fineBuckets) :
    arena.arena.take (arena.counts.take buckets).sum = (List.range buckets).flatMap arena.bucket := by
  induction buckets with
  | zero => rfl
  | succ bucket ih =>
    have inside : bucket < arena.counts.length := by
      rw [holds.buckets]
      exact some_buckets
    have next : (arena.counts.take (bucket + 1)).sum =
        (arena.counts.take bucket).sum + arena.counts.getD bucket 0 := by
      rw [List.take_succ_eq_append_getElem inside, List.sum_append, List.sum_singleton,
        List.getD_eq_getElem _ _ inside]
    rw [next, List.take_add, ih (Nat.le_of_lt some_buckets), List.range_succ, List.flatMap_append,
      List.flatMap_singleton, FineCsrArena.bucket, compact bucket some_buckets]

/-- The edges of all buckets. -/
def allBuckets (arena : FineCsrArena) : List Nat := (List.range fineBuckets).flatMap arena.bucket

/-- The buckets list the edges of an arena, each once. -/
theorem all_buckets_spec (inGraph : ∀ side edge, endpoints side edge < 2 ^ edgeBits)
    (holds : Holds endpoints edgeBits side live arena) :
    (allBuckets arena).Nodup ∧ ∀ edge, edge ∈ allBuckets arena ↔ edge ∈ live := by
  constructor
  · apply nodup_parts _ _ (fun edge => fineBucket edgeBits (endpoints side edge)) List.nodup_range
    · intro bucket member
      exact holds.unique bucket (List.mem_range.mp member)
    · intro bucket member edge listed
      exact ((holds.members bucket (List.mem_range.mp member) edge).mp listed).2
  · intro edge
    rw [allBuckets, List.mem_flatMap]
    constructor
    · rintro ⟨bucket, member, listed⟩
      exact ((holds.members bucket (List.mem_range.mp member) edge).mp listed).1
    · intro in_live
      have inside := fine_bucket_lt edgeBits _ (inGraph side edge)
      exact ⟨_, List.mem_range.mpr inside, (holds.members _ inside edge).mpr ⟨in_live, rfl⟩⟩

/-- Reading an arena without gaps lists its buckets. -/
theorem read_fine_survivors_eq (holds : Holds endpoints edgeBits side live arena)
    (compact : Compact arena) : readFineSurvivors arena = allBuckets arena := by
  rw [allBuckets, ← compact_take holds compact fineBuckets (Nat.le_refl _), ← holds.buckets,
    List.take_length, ← holds.total, readFineSurvivors]
  split
  · rename_i none_left
    rw [none_left, List.take_zero]
  · rfl

end Arena

/-! ## The history of a run -/

/-- The rounds that were performed, with their sides. -/
def ranRounds (history : List Event) : List (Nat × Nat) :=
  history.filterMap fun
    | .ran _ round side => some (round, side)
    | _ => none

/-- The number of transitions to fine rounds. -/
def transitions (history : List Event) : Nat :=
  history.countP fun
    | .transition _ => true
    | _ => false

/-- The edges that survive some rounds. -/
def survivors (endpoints : Nat → Nat → Nat) (edgeBits round : Nat) : Set Nat :=
  trimRounds (Mates endpoints) (graph edgeBits) round

/-- What a history says after some rounds: they were performed in order and on their sides,
    every fine round was given the survivors in buckets of its side, and what was read had
    no gaps. -/
structure Recorded (endpoints : Nat → Nat → Nat) (edgeBits round moves : Nat)
    (history : List Event) : Prop where
  rounds : ranRounds history = (List.range round).map fun round => (round, round % 2)
  transitions : transitions history = moves
  given : ∀ round side arena, .given round side arena ∈ history → side = round % 2 ∧
    Holds endpoints edgeBits side (survivors endpoints edgeBits round) arena
  read : ∀ arena, .read arena ∈ history → Compact arena

section History

variable {endpoints : Nat → Nat → Nat} {edgeBits round moves : Nat} {history : List Event}

/-- One more round was performed. -/
theorem Recorded.ran (recorded : Recorded endpoints edgeBits round moves history) (engine : Engine) :
    Recorded endpoints edgeBits (round + 1) moves (history ++ [.ran engine round (round % 2)]) := by
  constructor
  · rw [ranRounds, List.filterMap_append, ← ranRounds, recorded.rounds, List.range_succ,
      List.map_append]
    rfl
  · rw [TrimRun.transitions, List.countP_append, ← TrimRun.transitions, recorded.transitions]
    rfl
  · intro other side arena member
    exact recorded.given other side arena (by simpa using member)
  · intro arena member
    exact recorded.read arena (by simpa using member)

/-- A fine round was given the survivors in buckets of its side. -/
theorem Recorded.gave (recorded : Recorded endpoints edgeBits round moves history)
    {arena : FineCsrArena}
    (holds : Holds endpoints edgeBits (round % 2) (survivors endpoints edgeBits round) arena) :
    Recorded endpoints edgeBits round moves (history ++ [.given round (round % 2) arena]) := by
  constructor
  · rw [ranRounds, List.filterMap_append, ← ranRounds, recorded.rounds]
    simp
  · rw [TrimRun.transitions, List.countP_append, ← TrimRun.transitions, recorded.transitions]
    rfl
  · intro other side given member
    rcases List.mem_append.mp member with earlier | last
    · exact recorded.given other side given earlier
    · rw [List.mem_singleton, Event.given.injEq] at last
      obtain ⟨rfl, rfl, rfl⟩ := last
      exact ⟨rfl, holds⟩
  · intro given member
    exact recorded.read given (by simpa using member)

/-- The run went over to fine rounds. -/
theorem Recorded.moved (recorded : Recorded endpoints edgeBits round moves history)
    (completedRound : Nat) :
    Recorded endpoints edgeBits round (moves + 1) (history ++ [.transition completedRound]) := by
  constructor
  · rw [ranRounds, List.filterMap_append, ← ranRounds, recorded.rounds]
    simp
  · rw [TrimRun.transitions, List.countP_append, ← TrimRun.transitions, recorded.transitions]
    rfl
  · intro other side arena member
    exact recorded.given other side arena (by simpa using member)
  · intro arena member
    exact recorded.read arena (by simpa using member)

/-- An arena without gaps was read. -/
theorem Recorded.readback (recorded : Recorded endpoints edgeBits round moves history)
    {arena : FineCsrArena} (compact : Compact arena) :
    Recorded endpoints edgeBits round moves (history ++ [.read arena]) := by
  constructor
  · rw [ranRounds, List.filterMap_append, ← ranRounds, recorded.rounds]
    simp
  · rw [TrimRun.transitions, List.countP_append, ← TrimRun.transitions, recorded.transitions]
    rfl
  · intro other side given member
    exact recorded.given other side given (by simpa using member)
  · intro other member
    rcases List.mem_append.mp member with earlier | last
    · exact recorded.read other earlier
    · rw [List.mem_singleton, Event.read.injEq] at last
      rw [last]
      exact compact

end History

/-! ## The rounds -/

/-- The side of a round. -/
theorem side_of_round (round : Nat) : round &&& 1 = round % 2 ∧ round % 2 < 2 :=
  ⟨Nat.and_one_is_mod round, Nat.mod_lt _ Nat.two_pos⟩

/-- Work is submitted if nothing that it binds was given up. -/
theorem submit_ok {device : Device} {buffers : List Buffer}
    (kept : ∀ buffer ∈ buffers, buffer ∉ device.destroyed) : device.submit buffers = .ok device := by
  have none_found : (buffers.find? fun buffer => decide (buffer ∈ device.destroyed)) = none := by
    rw [List.find?_eq_none]
    intro buffer member
    rw [decide_eq_true_eq]
    exact kept buffer member
  rw [Device.submit, none_found]

/-- The other side of the next round. -/
theorem next_side (round : Nat) : 1 - round % 2 = (round + 1) % 2 := by omega

/-- The state of a run between rounds in the bitmap. -/
structure InBitmap (endpoints : Nat → Nat → Nat) (edgeBits round : Nat) (device : Device) : Prop where
  sized : Sized edgeBits device.edges
  live : liveEdges device.edges = survivors endpoints edgeBits round
  kept : device.destroyed = []
  recorded : Recorded endpoints edgeBits round 0 device.history

/-- The state of a run between fine rounds. -/
structure InArena (endpoints : Nat → Nat → Nat) (edgeBits round : Nat) (arena : FineCsrArena)
    (device : Device) : Prop where
  holds : Holds endpoints edgeBits (round % 2) (survivors endpoints edgeBits round) arena
  kept : ∀ buffer ∈ fineTrimGroup, buffer ∉ device.destroyed
  recorded : Recorded endpoints edgeBits round 1 device.history

section Rounds

variable {endpoints : Nat → Nat → Nat} {edgeBits round : Nat} {engines : Engines} {device : Device}
variable {arena : FineCsrArena}

/-- Nothing that a run binds in the bitmap was given up. -/
theorem InBitmap.submit_ok (here : InBitmap endpoints edgeBits round device) (buffers : List Buffer) :
    device.submit buffers = .ok device := by
  apply TrimRun.submit_ok
  intro buffer _
  rw [here.kept]
  exact List.not_mem_nil

/-- A round in the bitmap leads to the next. -/
theorem InBitmap.next (here : InBitmap endpoints edgeBits round device) (engine : Engine)
    {edges : Bitmap} (trims : Trims endpoints edgeBits (round % 2) device.edges edges) :
    InBitmap endpoints edgeBits (round + 1) (device.ran engine round (round % 2) edges) := by
  constructor
  · exact trims.1
  · show liveEdges edges = _
    rw [trims.2, here.live]
    rfl
  · exact here.kept
  · exact here.recorded.ran engine

/-- All edges are live before round zero. -/
theorem InBitmap.full (here : InBitmap endpoints edgeBits round device) (first : round = 0) :
    liveEdges device.edges = graph edgeBits := by
  subst first
  exact here.live

/-- A slean round in a run. -/
theorem run_dense_round_ok (performs : Performs endpoints edgeBits engines)
    (here : InBitmap endpoints edgeBits round device) :
    ∃ after, runDenseRound engines round device = .ok after ∧
      InBitmap endpoints edgeBits (round + 1) after := by
  refine ⟨_, ?_, here.next .slean (performs.sleanDenseRound round (round % 2) _ here.sized here.full)⟩
  rw [runDenseRound, bind_of_ok _ _ _ (here.submit_ok _), (side_of_round round).1]
  rfl

/-- A bucketed round in a run. -/
theorem run_bucket_round_ok (performs : Performs endpoints edgeBits engines)
    (here : InBitmap endpoints edgeBits round device) :
    ∃ after, runBucketRound engines round device = .ok after ∧
      InBitmap endpoints edgeBits (round + 1) after := by
  refine ⟨_, ?_, here.next .bucketed (performs.bucketRound round (round % 2) _ here.sized here.full)⟩
  rw [runBucketRound, bind_of_ok _ _ _ (here.submit_ok _), (side_of_round round).1]
  rfl

/-- The direct rounds of a range in a run. -/
theorem encode_lean_rounds_ok (performs : Performs endpoints edgeBits engines) (last : Nat)
    (ordered : round ≤ last) (here : InBitmap endpoints edgeBits round device) :
    ∃ after, encodeLeanRounds engines round last device = .ok after ∧
      InBitmap endpoints edgeBits last after := by
  obtain ⟨count, rfl⟩ := Nat.exists_eq_add_of_le ordered
  rw [encodeLeanRounds, Nat.add_sub_cancel_left]
  refine fold_range_ok _ (InBitmap endpoints edgeBits) round count ?_ device here
  intro other _ _ before now
  refine ⟨_, ?_, now.next .lean (performs.leanRound other (other % 2) _ now.sized)⟩
  simp only
  rw [bind_of_ok _ _ _ (now.submit_ok _), (side_of_round other).1]
  rfl

/-- A batch of direct rounds in a run, unless it ends beyond the 32-bit numbers. -/
theorem run_lean_batch_ok (performs : Performs endpoints edgeBits engines) (rounds : Nat)
    (oneRoundAtATime : Bool) (small : rounds < 4294967296) (before : round < rounds)
    (fits : oneRoundAtATime = true ∨ rounds ≤ 4294967280)
    (here : InBitmap endpoints edgeBits round device) :
    ∃ next after, runLeanBatch engines round rounds oneRoundAtATime device = .ok (next, after) ∧
      (round < next ∧ next ≤ rounds) ∧ InBitmap endpoints edgeBits next after := by
  have batch : ∃ size, (if oneRoundAtATime then 1 else roundsPerSubmission) = size ∧ 0 < size ∧
      round + size < 4294967296 := by
    cases oneRoundAtATime with
    | true => exact ⟨1, rfl, Nat.one_pos, by omega⟩
    | false =>
      have few : rounds ≤ 4294967280 := by simpa using fits
      exact ⟨16, rfl, by decide, by omega⟩
  obtain ⟨size, same, positive, inside⟩ := batch
  have batch_end : min (asU32 (round + size)) rounds = min (round + size) rounds := by
    rw [asU32, Nat.mod_eq_of_lt inside]
  obtain ⟨after, encoded, there⟩ := encode_lean_rounds_ok performs (min (round + size) rounds)
    (by omega) here
  refine ⟨min (round + size) rounds, after, ?_, by omega, there⟩
  rw [runLeanBatch]
  simp only [same, batch_end]
  rw [bind_of_ok _ _ _ encoded]
  rfl

/-- A fine round in a run: the last one leaves no gaps. -/
theorem fine_round_ok (performs : Performs endpoints edgeBits engines) (endRound : Nat)
    (here : InArena endpoints edgeBits round arena device) :
    ∃ next after, fineRound engines endRound round arena device = .ok (next, after) ∧
      InArena endpoints edgeBits (round + 1) next after ∧
      (round + 1 = endRound → Compact next) := by
  have side := (side_of_round round).2
  have in_graph : survivors endpoints edgeBits round ⊆ graph edgeBits := trim_rounds_subset round
  have gave := here.recorded.gave here.holds
  have submitted : (device.note (.given round (round % 2) arena)).submit fineTrimGroup =
      .ok (device.note (.given round (round % 2) arena)) := submit_ok here.kept
  obtain ⟨csr_holds, csr_compact⟩ :=
    performs.trimFineCsrOnce round (round % 2) _ arena side in_graph here.holds
  rw [next_side] at csr_holds
  rw [fineRound, (side_of_round round).1]
  simp only
  rw [bind_of_ok _ _ _ submitted]
  split
  · rename_i more
    split
    · rename_i next fixed
      refine ⟨next, _, rfl, ⟨?_, here.kept, gave.ran .fineFixed⟩, fun last => by omega⟩
      have fixed_holds :=
        performs.trimFineFixedOnce round (round % 2) _ arena next side in_graph here.holds fixed
      rw [next_side] at fixed_holds
      exact fixed_holds
    · exact ⟨_, _, rfl, ⟨csr_holds, here.kept, gave.ran .fineCsr⟩, fun _ => csr_compact⟩
  · exact ⟨_, _, rfl, ⟨csr_holds, here.kept, gave.ran .fineCsr⟩, fun _ => csr_compact⟩

/-- The fine rounds of a run: they end with an arena without gaps. -/
theorem run_fine_rounds_ok (performs : Performs endpoints edgeBits engines) (endRound : Nat)
    (ordered : round ≤ endRound) (here : InArena endpoints edgeBits round arena device)
    (compact : Compact arena) :
    ∃ last after, runFineRounds engines round endRound arena device = .ok (last, after) ∧
      InArena endpoints edgeBits endRound last after ∧ Compact last := by
  obtain ⟨count, rfl⟩ := Nat.exists_eq_add_of_le ordered
  obtain ⟨⟨last, after⟩, ended, there, done⟩ := fold_range_ok
    (fun (state : FineCsrArena × Device) other =>
      fineRound engines (round + count) other state.1 state.2)
    (fun other state => InArena endpoints edgeBits other state.1 state.2 ∧
      (other = round + count → Compact state.1)) round count
    (by
      rintro other _ _ ⟨arena, device⟩ ⟨now, _⟩
      obtain ⟨next, after, ran, there, last⟩ := fine_round_ok performs (round + count) now
      exact ⟨(next, after), ran, there, last⟩)
    (arena, device) ⟨here, fun _ => compact⟩
  refine ⟨last, after, ?_, there, done rfl⟩
  rw [runFineRounds, Nat.add_sub_cancel_left]
  exact ended

/-- The transition hands the survivors over in buckets of the next round's side. -/
theorem build_fine_transition_seed_ok (performs : Performs endpoints edgeBits engines)
    (shardedSeed : Bool) (here : InBitmap endpoints edgeBits round device) :
    ∃ arena start after, buildFineTransitionSeed engines shardedSeed round
        (device.note (.transition round)) = .ok (arena, start, after) ∧
      (round ≤ start ∧ start ≤ round + 1) ∧ InArena endpoints edgeBits start arena after ∧
      Compact arena := by
  obtain ⟨same_side, side⟩ := side_of_round round
  have moved := here.recorded.moved round
  have submitted : ((device.note (.transition round)).destroy givenUp).submit fineSeedGroup =
      .ok ((device.note (.transition round)).destroy givenUp) := by
    apply submit_ok
    show ∀ buffer ∈ fineSeedGroup, buffer ∉ device.destroyed ++ givenUp
    rw [here.kept]
    decide
  have kept : ∀ buffer ∈ fineTrimGroup, buffer ∉ device.destroyed ++ givenUp ++ [.edges] := by
    rw [here.kept]
    decide
  rw [buildFineTransitionSeed]
  simp only
  rw [bind_of_ok _ _ _ submitted, bind_of_ok _ _ _ submitted, same_side]
  cases shardedSeed with
  | true =>
    obtain ⟨holds, compact⟩ :=
      performs.buildShardedFineSeedAndTrim round (round % 2) device.edges side here.sized
    rw [next_side, here.live] at holds
    exact ⟨_, _, _, rfl, ⟨Nat.le_succ _, Nat.le_refl _⟩, ⟨holds, kept, moved.ran .sharded⟩, compact⟩
  | false =>
    obtain ⟨holds, compact⟩ := performs.buildFineCsr round (round % 2) device.edges here.sized
    rw [here.live] at holds
    exact ⟨_, _, _, rfl, ⟨Nat.le_refl _, Nat.le_succ _⟩, ⟨holds, kept, moved⟩, compact⟩

/-- The edges that a run returns, and its history. The order of the list depends on whether it
    was read from a bitmap or an arena. -/
def Returned (endpoints : Nat → Nat → Nat) (edgeBits rounds : Nat) (listed : List Nat)
    (device : Device) : Prop :=
  (∃ moves ≤ 1, Recorded endpoints edgeBits rounds moves device.history) ∧ listed.Nodup ∧
    ∀ edge, edge ∈ listed ↔ edge ∈ survivors endpoints edgeBits rounds

/-- From the transition on, a run performs the remaining rounds and reads the survivors. -/
theorem run_fine_transition_ok (performs : Performs endpoints edgeBits engines)
    (inGraph : ∀ side edge, endpoints side edge < 2 ^ edgeBits) (endRound : Nat)
    (before : round < endRound) (shardedSeed : Bool)
    (here : InBitmap endpoints edgeBits round device) :
    ∃ listed after, runFineTransition engines round endRound shardedSeed device =
        .ok (listed, after) ∧ Returned endpoints edgeBits endRound listed after := by
  obtain ⟨arena, start, seeded, built, ⟨_, near⟩, there, compact⟩ :=
    build_fine_transition_seed_ok performs shardedSeed here
  obtain ⟨last, after, ended, finished, no_gaps⟩ :=
    run_fine_rounds_ok performs endRound (by omega) there compact
  obtain ⟨unique, members⟩ := all_buckets_spec inGraph finished.holds
  rw [← read_fine_survivors_eq finished.holds no_gaps] at unique members
  refine ⟨readFineSurvivors last, after.note (.read last), ?_,
    ⟨1, Nat.le_refl _, finished.recorded.readback no_gaps⟩, unique, members⟩
  rw [runFineTransition]
  simp only
  rw [bind_of_ok _ _ _ built]
  simp only
  rw [bind_of_ok _ _ _ ended]
  rfl

end Rounds

/-! ## The whole run -/

/-- The thresholds of a run fit together: if there are fine rounds, all rounds before the
    transition are slean or bucketed ones and some round is left for the fine ones; if there
    are none, no batch of direct rounds ends beyond the 32-bit numbers. -/
structure Plan (run : TrimRun) : Prop where
  small : run.rounds < 4294967296
  bucketed : run.productionFine = true → run.productionBucketedMark = true
  early : run.productionFine = true → run.bucketRounds = run.fineTransitionRound
  some_left : run.productionFine = true → run.fineTransitionRound < run.rounds
  to_the_end : run.productionFine = true → run.fineEndRound = run.rounds
  fits : run.productionFine = true ∨ run.liveWork = true ∨ run.rounds ≤ 4294967280

section Run

variable {endpoints : Nat → Nat → Nat} {edgeBits round : Nat} {engines : Engines} {device : Device}
variable {run : TrimRun}

/-- The next rounds in the bitmap, which do not miss the transition. -/
theorem bitmap_rounds_ok (performs : Performs endpoints edgeBits engines) (plan : Plan run)
    (before : round < run.rounds)
    (waiting : run.productionFine = true → round < run.fineTransitionRound)
    (here : InBitmap endpoints edgeBits round device) :
    ∃ next after, bitmapRounds engines run round device = .ok (next, after) ∧
      (round < next ∧ next ≤ run.rounds) ∧
      (run.productionFine = true → next ≤ run.fineTransitionRound) ∧
      InBitmap endpoints edgeBits next after := by
  rw [bitmapRounds]
  split
  · obtain ⟨after, ran, there⟩ := run_dense_round_ok performs here
    refine ⟨round + 1, after, ?_, by omega, waiting, there⟩
    rw [bind_of_ok _ _ _ ran]
    rfl
  · rename_i not_slean
    split
    · obtain ⟨after, ran, there⟩ := run_bucket_round_ok performs here
      refine ⟨round + 1, after, ?_, by omega, waiting, there⟩
      rw [bind_of_ok _ _ _ ran]
      rfl
    · rename_i not_bucketed
      have not_fine : run.productionFine = false := by
        rw [Bool.eq_false_iff]
        intro fine
        have small := waiting fine
        rw [← plan.early fine] at small
        rcases Bool.eq_false_or_eq_true run.productionSlean with slean | not_dense
        · exact not_slean ⟨slean, small⟩
        · exact not_bucketed ⟨plan.bucketed fine, by simp [not_dense], small⟩
      have fits : run.liveWork = true ∨ run.rounds ≤ 4294967280 := by
        rcases plan.fits with fine | fits
        · rw [not_fine] at fine
          cases fine
        · exact fits
      obtain ⟨next, after, ran, progress, there⟩ :=
        run_lean_batch_ok performs run.rounds run.liveWork plan.small before fits here
      refine ⟨next, after, ran, progress, fun fine => ?_, there⟩
      rw [not_fine] at fine
      cases fine

/-- Reading a bitmap lists the survivors that are live in it, each once. -/
theorem read_bitmap_spec {edges : Bitmap} (live : liveEdges edges = survivors endpoints edgeBits round) :
    (readBitmapSurvivors (GraphSize.new edgeBits).edgeCount edges).Nodup ∧
      ∀ edge, edge ∈ readBitmapSurvivors (GraphSize.new edgeBits).edgeCount edges ↔
        edge ∈ survivors endpoints edgeBits round := by
  have ascending := PackedBits.members_ascending edges 0 (by decide)
  refine ⟨(ascending.imp Nat.ne_of_lt).filter _, fun edge => ?_⟩
  rw [readBitmapSurvivors, List.mem_filter, LeanRound.mem_live, decide_eq_true_eq, ← live]
  constructor
  · exact And.left
  · intro member
    refine ⟨member, ?_⟩
    have in_live : edge ∈ liveEdges edges := member
    rw [live] at in_live
    have in_graph : edge ∈ graph edgeBits := trim_rounds_subset round in_live
    exact in_graph

/-- With enough turns a run returns the survivors of all rounds. -/
theorem run_rounds_ok (performs : Performs endpoints edgeBits engines)
    (inGraph : ∀ side edge, endpoints side edge < 2 ^ edgeBits) (plan : Plan run)
    (size : run.edgeBits = edgeBits) (turns : Nat) (enough : run.rounds < round + turns)
    (inside : round ≤ run.rounds)
    (waiting : run.productionFine = true → round < run.fineTransitionRound)
    (here : InBitmap endpoints edgeBits round device) :
    ∃ listed after, runRounds engines run turns round device = .ok (listed, after) ∧
      Returned endpoints edgeBits run.rounds listed after := by
  induction turns generalizing round device with
  | zero => omega
  | succ turns ih =>
    rw [runRounds]
    split
    · rename_i before
      obtain ⟨next, between, ran, ⟨further, most⟩, in_time, there⟩ :=
        bitmap_rounds_ok performs plan before waiting here
      rw [bind_of_ok _ _ _ ran]
      simp only
      rw [reportRound]
      split
      · rename_i time
        obtain ⟨fine, _, left⟩ := time
        rw [plan.to_the_end fine] at left ⊢
        obtain ⟨listed, after, moved, returned⟩ := run_fine_transition_ok performs inGraph run.rounds
          left run.shardedFineSeed there
        refine ⟨listed, after, ?_, returned⟩
        rw [moved]
        rfl
      · rename_i not_yet
        refine ih (by omega) most (fun fine => ?_) there
        have left := plan.some_left fine
        rw [← plan.to_the_end fine] at left
        rcases Nat.lt_or_eq_of_le (in_time fine) with earlier | same
        · exact earlier
        · exact absurd ⟨fine, same, same ▸ left⟩ not_yet
    · rename_i done
      obtain rfl : round = run.rounds := by omega
      obtain ⟨unique, members⟩ := read_bitmap_spec here.live
      refine ⟨_, device, ?_, ⟨0, Nat.zero_le _, here.recorded⟩, unique, members⟩
      rw [bind_of_ok _ _ _ (here.submit_ok _), size]
      rfl

/-- Direct rounds in batches of sixteen do not end if the last batch ends beyond the 32-bit
    numbers: the run starts over. -/
theorem run_rounds_endless (not_fine : run.productionFine = false)
    (not_slean : run.productionSlean = false) (not_bucketed : run.productionBucketedMark = false)
    (batches : run.liveWork = false) (many : 4294967280 < run.rounds) (turns : Nat)
    (aligned : round % 16 = 0) (inside : round ≤ 4294967280) (result : List Nat × Device) :
    runRounds engines run turns round device ≠ .ok result := by
  induction turns generalizing round device with
  | zero => exact nofun
  | succ turns ih =>
    intro returned
    rw [runRounds, if_pos (by omega)] at returned
    obtain ⟨⟨next, between⟩, ran, returned⟩ := (bind_ok_iff _ _ _).mp returned
    simp only [bitmapRounds, not_slean, not_bucketed, Bool.false_eq_true, false_and, if_false,
      batches] at ran
    have batch_end : next = min (asU32 (round + 16)) run.rounds := by
      rw [runLeanBatch] at ran
      obtain ⟨_, _, ran⟩ := (bind_ok_iff _ _ _).mp ran
      exact (Prod.mk.inj (Except.ok.inj ran)).1.symm
    simp only [reportRound, not_fine, Bool.false_eq_true, false_and, if_false] at returned
    have next_aligned : next % 16 = 0 ∧ next ≤ 4294967280 := by
      rw [batch_end, asU32]
      rcases Nat.lt_or_eq_of_le inside with earlier | last
      · have no_wrap : (round + 16) % 4294967296 = round + 16 := Nat.mod_eq_of_lt (by omega)
        rw [no_wrap]
        omega
      · rw [last, Nat.mod_self, Nat.zero_min]
        decide
    exact ih next_aligned.1 next_aligned.2 returned

end Run

section Exact

variable (endpoints : Nat → Nat → Nat) (engines : Engines) (edgeBits rounds : Nat) (liveWork : Bool)
variable (options : TrimOptions)

/-- A run returns without binding a buffer that was given up, after all rounds have been
    performed once, in order and on their sides; fine rounds were given the survivors in
    buckets of their side, the run went over to them at most once, what was read had no gaps,
    and the returned list holds the survivors of all rounds. -/
def TrimExact : Prop :=
  ∃ turns listed device,
    trimWithMarkMode engines edgeBits rounds liveWork options turns = .ok (listed, device) ∧
    ranRounds device.history = (List.range rounds).map (fun round => (round, round % 2)) ∧
    (∀ round side arena, .given round side arena ∈ device.history → side = round % 2 ∧
      Holds endpoints edgeBits side (survivors endpoints edgeBits round) arena) ∧
    transitions device.history ≤ 1 ∧
    (∀ arena, .read arena ∈ device.history → Compact arena) ∧
    listed.Nodup ∧ ∀ edge, edge ∈ listed ↔ edge ∈ survivors endpoints edgeBits rounds

variable {endpoints engines edgeBits rounds liveWork options}

/-- The thresholds fit together in every mode. -/
theorem trim_run_plan (small : rounds < 4294967296)
    (fits : (bucketedMarkMinEdgeBits ≤ edgeBits ∧ options.bucketedMark = true) ∨ liveWork = true ∨
      rounds ≤ 4294967280) :
    Plan ((prepareTrim edgeBits rounds options).trimRun edgeBits liveWork) := by
  have fine_iff : (prepareTrim edgeBits rounds options).productionFine = true ↔
      (options.bucketedMark = true ∧ edgeBits ≥ bucketedMarkMinEdgeBits) ∧
        rounds > bucketedMarkRounds := by
    simp only [prepareTrim, Bool.and_eq_true, decide_eq_true_eq]
  constructor
  · exact small
  · intro fine
    obtain ⟨⟨wanted, large⟩, _⟩ := fine_iff.mp fine
    show (prepareTrim edgeBits rounds options).productionBucketedMark = true
    simp only [prepareTrim, wanted, Bool.true_and, decide_eq_true_eq]
    exact large
  · intro fine
    have fine_mode : (prepareTrim edgeBits rounds options).productionFine = true := fine
    simp only [PreparedTrim.trimRun, fine_mode, if_true]
    split <;> rfl
  · intro fine
    obtain ⟨_, many⟩ := fine_iff.mp fine
    have fine_mode : (prepareTrim edgeBits rounds options).productionFine = true := fine
    simp only [PreparedTrim.trimRun, fine_mode, if_true]
    simp only [bucketedMarkRounds] at many
    show (if _ then 3 else 2) < rounds
    split <;> omega
  · intro fine
    have fine_mode : (prepareTrim edgeBits rounds options).productionFine = true := fine
    simp only [PreparedTrim.trimRun, fine_mode, if_true]
  · rcases fits with ⟨large, wanted⟩ | others
    · rcases Nat.lt_or_ge bucketedMarkRounds rounds with many | few
      · exact Or.inl (fine_iff.mpr ⟨⟨wanted, large⟩, many⟩)
      · exact Or.inr (Or.inr (Nat.le_trans few (by decide)))
    · exact Or.inr others

/-- If every engine performs the round it is asked for, a run performs every round once on the
    right data, in every mode and for every number of rounds, unless rounds are submitted in
    batches of sixteen and the last batch ends beyond the 32-bit numbers. What an engine does is
    assumed here and proved of the kernels apart from it. A run that is cancelled is left out. -/
theorem trim_exact_iff (performs : Performs endpoints edgeBits engines)
    (inGraph : ∀ side edge, endpoints side edge < 2 ^ edgeBits) (small : rounds < 4294967296) :
    TrimExact endpoints engines edgeBits rounds liveWork options ↔
      (bucketedMarkMinEdgeBits ≤ edgeBits ∧ options.bucketedMark = true) ∨ liveWork = true ∨
        rounds ≤ 4294967280 := by
  constructor
  · rintro ⟨turns, listed, device, returned, _⟩
    by_contra leaves
    simp only [not_or, not_and, Bool.not_eq_true, Nat.not_le] at leaves
    obtain ⟨not_bucketed, batches, many⟩ := leaves
    have direct : (options.bucketedMark && decide (edgeBits ≥ bucketedMarkMinEdgeBits)) = false := by
      rcases Nat.lt_or_ge edgeBits bucketedMarkMinEdgeBits with below | large
      · rw [decide_eq_false (Nat.not_le.mpr below), Bool.and_false]
      · rw [not_bucketed large, Bool.false_and]
    refine run_rounds_endless ?_ ?_ direct batches many turns (Nat.zero_mod 16) (Nat.zero_le _) _
      returned
    · show (_ && _) = false
      rw [direct, Bool.false_and]
    · show (options.slean && _) = false
      rw [direct, Bool.and_false]
  · intro fits
    have plan : Plan ((prepareTrim edgeBits rounds options).trimRun edgeBits liveWork) :=
      trim_run_plan small fits
    have start : InBitmap endpoints edgeBits 0 ⟨engines.initializeEdges, [], []⟩ :=
      ⟨performs.initializeEdges.1, performs.initializeEdges.2, rfl, ⟨rfl, rfl, nofun, nofun⟩⟩
    have waiting : ((prepareTrim edgeBits rounds options).trimRun edgeBits liveWork).productionFine =
        true → 0 <
        ((prepareTrim edgeBits rounds options).trimRun edgeBits liveWork).fineTransitionRound := by
      intro _
      simp only [PreparedTrim.trimRun]
      split
      · split <;> decide
      · decide
    obtain ⟨listed, device, returned, ⟨moves, few, recorded⟩, unique, members⟩ :=
      run_rounds_ok performs inGraph plan rfl (rounds + 1) (Nat.lt_add_left 0 (Nat.lt_succ_self _))
        (Nat.zero_le _) waiting start
    exact ⟨rounds + 1, listed, device, returned, recorded.rounds, recorded.given,
      recorded.transitions ▸ few, recorded.read, unique, members⟩

end Exact

end CuckatooMiner.TrimRun
