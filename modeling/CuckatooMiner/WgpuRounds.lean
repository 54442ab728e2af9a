import Mathlib
import CuckatooMiner.WgpuTrim

/-!
# Rounds of the GPU trim

Each round in the bitmap performs its round whatever the order of its threads, unless a
raised flag stops it. A run in the bitmap goes from round to round, and never beyond the
round at which fine rounds begin.
-/

namespace CuckatooMiner.WgpuTrim

open Outcome Polling Pruning
open Bucketed (groupsForWords words_launch)
open GpuLean (asU32 lean_trim_round_eq liveEdges)
open LeanRound (Bitmap)
open SleanLayout (GpuWgpuSolver HostSizing localBytes)
open TrimRun (Buffer Sized Trims lean_round_trims roundsPerSubmission side_of_round survivors)
open TwoCore (graph)

section Rounds

variable {solver : GpuWgpuSolver} {endpoints : Nat → Nat → Nat} {edgeBits round side : Nat}
  {world : World edgeBits} {edges : Bitmap} {flag : Nat → Bool} {fails : Fault → Prop}

/-! ## Direct rounds -/

/-- The kernels of a direct round perform it. -/
theorem direct_round_trims (range : 1 ≤ edgeBits ∧ edgeBits ≤ 32)
    (inGraph : ∀ edge, endpoints side edge < 2 ^ edgeBits) (sized : Sized edgeBits edges) :
    Trims endpoints edgeBits side edges (directRound endpoints world round side edges) := by
  have launch := words_launch range.1 range.2
  have stored := launch.word_count
  have same := (lean_trim_round_eq launch inGraph (world.direct round)
    ⟨edges, (world.leftover round).nodes⟩ (sized.trans stored.symm)
    ((world.leftover round).nodes_sized.trans stored.symm)).1
  rw [directRound, same, stored]
  exact lean_round_trims range.1 inGraph sized

/-! ## Slean rounds -/

section Slean

variable {sizing : HostSizing} {buckets parts : Nat}
  (sized : SleanLayout.Sized solver edgeBits sizing buckets parts)
  (range : 24 ≤ edgeBits ∧ edgeBits ≤ 32) (small : localBytes solver edgeBits < 65536)
  (fewer : parts ≤ buckets)

/-- The sizes of the round. -/
abbrev roundSizes : Slean.SleanSizing := SleanSeen.roundSizing sized range small fewer

/-- The round has as many dead lists as the host allocates. -/
theorem round_dead_lists :
    (roundSizes sized range small fewer).deadBucketCount = sizing.deadBucketCount := by
  have edges : (roundSizes sized range small fewer).partEdges =
      SleanLayout.edgeCount edgeBits ⌈/⌉ 2 ^ parts := by
    simp only [Slean.SleanSizing.partEdges, SleanSeen.roundSizing]
    rw [sized.part_count, SleanLayout.edge_count_eq]
  rw [Slean.SleanSizing.deadBucketCount, edges]
  conv_rhs => rw [sized.same]
  rfl

/-- The kernels mark a part with the parameters of the round. -/
theorem slean_mark_part_eq (buffers : Slean.Buffers) (part : Nat) (inside : part < sizing.parts) :
    sleanMarkPart solver endpoints world sizing round side buffers part =
      Slean.markPart (roundSizes sized range small fewer) (endpoints side) (world.slean round)
        (round = 0) buffers part := by
  have params := SleanSeen.part_params_eq sized range small fewer part inside
  have same : (roundSizes sized range small fewer).parts = sizing.parts := rfl
  rw [sleanMarkPart, SleanSeen.markPart, Slean.markPart, same]
  simp only [SleanSeen.scatterPart, params]
  by_cases last : part + 1 = sizing.parts
  · rw [if_pos last, if_pos last]
    rfl
  · rw [if_neg last, if_neg last]
    rfl

/-- They trim the last part with them. -/
theorem slean_trim_last_part_eq (buffers : Slean.Buffers) :
    sleanTrimLastPart solver endpoints world sizing round side buffers =
      Slean.trimLastPart (roundSizes sized range small fewer) (endpoints side) (world.slean round)
        buffers := by
  have two := (roundSizes sized range small fewer).parts_two
  have params := SleanSeen.part_params_eq sized range small fewer (sizing.parts - 1)
    (Nat.sub_lt (Nat.lt_of_lt_of_le Nat.two_pos two) Nat.one_pos)
  rw [sleanTrimLastPart, SleanSeen.trimLastPart, Slean.trimLastPart, round_dead_lists]
  simp only [params]
  rfl

/-- They trim an earlier part with them. -/
theorem slean_trim_part_eq (buffers : Slean.Buffers) (part : Nat) (inside : part < sizing.parts) :
    sleanTrimPart solver endpoints world sizing round side buffers part =
      Slean.trimPart (roundSizes sized range small fewer) (endpoints side) (world.slean round)
        (round = 0) buffers part := by
  have params := SleanSeen.part_params_eq sized range small fewer part inside
  rw [sleanTrimPart, SleanSeen.trimPart, Slean.trimPart, round_dead_lists]
  simp only [SleanSeen.scatterPart, params]
  rfl

/-- A mark phase that is not stopped is that of the round. -/
theorem slean_mark_phase_ends (buffers : Slean.Buffers) :
    Ends flag (runSleanMarkPhase solver endpoints world sizing round side buffers)
      (fun marked => marked = Slean.runSleanMarkPhase (roundSizes sized range small fewer)
        (endpoints side) (world.slean round) (round = 0) buffers) fails := by
  apply ends_turns
  have same : (roundSizes sized range small fewer).parts = sizing.parts := rfl
  have words : (roundSizes sized range small fewer).wordCount = SleanLayout.wordCount edgeBits := by
    rw [SleanLayout.wordCount, SleanLayout.edge_count_eq]
    rfl
  have arenas : (roundSizes sized range small fewer).bucketCount = sizing.bucketCount := rfl
  rw [Slean.runSleanMarkPhase, same, words, arenas, round_dead_lists]
  refine List.foldl_ext _ _ _ fun before part member => ?_
  exact slean_mark_part_eq sized range small fewer before part (List.mem_range.mp member)

/-- A trim phase that is not stopped is that of the round. -/
theorem slean_trim_phase_ends (buffers : Slean.Buffers) :
    Ends flag (runSleanTrimPhase solver endpoints world sizing round side buffers)
      (fun trimmed => trimmed = Slean.runSleanTrimPhase (roundSizes sized range small fewer)
        (endpoints side) (world.slean round) (round = 0) buffers) fails := by
  apply ends_turns
  have same : (roundSizes sized range small fewer).parts = sizing.parts := rfl
  rw [Slean.runSleanTrimPhase, same, slean_trim_last_part_eq sized range small fewer]
  refine List.foldl_ext _ _ _ fun before part member => ?_
  have earlier := List.mem_range.mp member
  exact slean_trim_part_eq sized range small fewer before part (by omega)

include sized range small fewer in
/-- A slean round that is not stopped performs its round. -/
theorem slean_round_ends (inGraph : ∀ edge, endpoints side edge < 2 ^ edgeBits)
    (edges_sized : Sized edgeBits edges) (full : round = 0 → liveEdges edges = graph edgeBits) :
    Ends flag (runSleanDenseRound solver endpoints world sizing round side edges)
      (Trims endpoints edgeBits side edges) fails := by
  have low : 1 ≤ edgeBits ∧ edgeBits ≤ 32 := ⟨Nat.le_trans (by decide) range.1, range.2⟩
  refine ends_bind (slean_mark_phase_ends sized range small fewer _) ?_
  rintro _ rfl
  refine ends_bind (slean_trim_phase_ends sized range small fewer _) ?_
  rintro _ rfl
  apply ends_pure
  obtain ⟨backup, trimmed⟩ := TrimRun.slean_phases_trim (roundSizes sized range small fewer)
    (world.slean round) ⟨edges, (world.leftover round).nodes, [], (world.leftover round).arenas,
      (world.leftover round).dead⟩ inGraph edges_sized full
  have counters : ∀ buffers, overflowReadback sizing buffers =
      Slean.overflowReadback (roundSizes sized range small fewer) buffers := by
    intro buffers
    rw [overflowReadback, Slean.overflowReadback, round_dead_lists]
    rfl
  rw [finishBucketRound, counters]
  split
  · rename_i none_lost
    exact trimmed none_lost
  · rw [backup]
    exact direct_round_trims low inGraph edges_sized

end Slean

/-! ## Bucketed rounds -/

/-- A bucketed round that is not stopped performs its round. -/
theorem bucketed_round_ends (range : 24 ≤ edgeBits ∧ edgeBits ≤ 32)
    (inGraph : ∀ edge, endpoints side edge < 2 ^ edgeBits) (edges_sized : Sized edgeBits edges)
    (full : round = 0 → liveEdges edges = graph edgeBits) :
    Ends flag (runBucketRound endpoints world round side edges)
      (Trims endpoints edgeBits side edges) fails := by
  have trimmed := TrimRun.bucketed_round_trims Bucketed.bucketConfigCapacity
    ⟨range.1, range.2, inGraph⟩ (world.bucketed round)
    ⟨edges, (world.leftover round).nodes, (world.leftover round).scratch⟩ edges_sized
    (world.leftover round).nodes_sized full
  let marked := Bucketed.markBucketRound Bucketed.bucketConfigCapacity (endpoints side) edgeBits
    round (world.bucketed round).mark
    ⟨edges, (world.leftover round).nodes, (world.leftover round).scratch⟩
  have marks : Ends flag (markBucketRound endpoints world round side ⟨edges,
      (world.leftover round).nodes, (world.leftover round).scratch⟩) (fun after => after = marked)
      fails := ends_turns _ _ _ rfl
  refine ends_bind marks ?_
  rintro _ rfl
  have trims : Ends flag (trimBucketRound endpoints world round side marked)
      (fun after => after = (Bucketed.trimBucketRound Bucketed.bucketConfigCapacity (endpoints side)
        edgeBits (groupsForWords edgeBits) round (world.bucketed round).trim
        (world.bucketed round).fallback marked).2) fails := by
    let chunks := Bucketed.trimChunks Bucketed.bucketConfigCapacity (endpoints side) edgeBits round
      (world.bucketed round).trim (Bucketed.chunkCount edgeBits) marked
    have phase : Ends flag (Task.turns (fun buffers chunk => Bucketed.trimChunk
        Bucketed.bucketConfigCapacity (endpoints side) edgeBits round
        ((world.bucketed round).trim chunk) chunk buffers)
        (List.range (Bucketed.chunkCount edgeBits)) marked : Task Fault Bucketed.Buffers)
        (fun after => after = chunks) fails := ends_turns _ _ _ rfl
    refine ends_bind phase ?_
    rintro _ rfl
    rw [Bucketed.trimBucketRound]
    dsimp only
    split
    · exact ends_pure rfl
    · exact ends_pure rfl
  refine ends_bind trims ?_
  rintro _ rfl
  exact ends_pure trimmed

/-! ## States of a run -/

/-- The state of a run between rounds in the bitmap. -/
structure InBitmap (endpoints : Nat → Nat → Nat) (edgeBits round : Nat) (device : Device) : Prop where
  sized : Sized edgeBits device.edges
  live : liveEdges device.edges = survivors endpoints edgeBits round
  kept : device.destroyed = []

variable {device : Device}

/-- A round in the bitmap leads to the next. -/
theorem InBitmap.next (here : InBitmap endpoints edgeBits round device)
    (trims : Trims endpoints edgeBits (round &&& 1) device.edges edges) :
    InBitmap endpoints edgeBits (round + 1) { device with edges := edges } := by
  refine ⟨trims.1, ?_, here.kept⟩
  rw [trims.2, here.live, (side_of_round round).1]
  rfl

/-- All edges are live before round zero. -/
theorem InBitmap.full (here : InBitmap endpoints edgeBits round device) (first : round = 0) :
    liveEdges device.edges = graph edgeBits := by
  subst first
  exact here.live

/-- Work is submitted if nothing that it binds was given up. -/
theorem submit_gives {buffers : List Buffer} (kept : ∀ buffer ∈ buffers, buffer ∉ device.destroyed) :
    Gives (device.submit buffers) (fun _ => True) fails := by
  have none_found : (buffers.find? fun buffer => decide (buffer ∈ device.destroyed)) = none := by
    rw [List.find?_eq_none]
    intro buffer member
    rw [decide_eq_true_eq]
    exact kept buffer member
  rw [Device.submit, none_found]
  exact gives_ok trivial

/-- Nothing was given up yet. -/
theorem InBitmap.submits (here : InBitmap endpoints edgeBits round device) (buffers : List Buffer) :
    Gives (device.submit buffers) (fun _ => True) fails := by
  apply submit_gives
  intro buffer _
  rw [here.kept]
  exact List.not_mem_nil

/-! ## Rounds in the bitmap of a run -/

/-- The direct rounds of a range lead to its end. -/
theorem encode_lean_rounds_next (range : 1 ≤ edgeBits ∧ edgeBits ≤ 32)
    (inGraph : ∀ side edge, endpoints side edge < 2 ^ edgeBits)
    (here : InBitmap endpoints edgeBits round device) (last : Nat) (ordered : round ≤ last) :
    InBitmap endpoints edgeBits last
      { device with edges := encodeLeanRounds endpoints world round last device.edges } := by
  obtain ⟨count, rfl⟩ := Nat.exists_eq_add_of_le ordered
  rw [encodeLeanRounds, Nat.add_sub_cancel_left]
  induction count generalizing round device with
  | zero => exact here
  | succ count ih =>
    rw [List.range'_succ, List.foldl_cons, show round + (count + 1) = round + 1 + count by omega]
    have trims : Trims endpoints edgeBits (round &&& 1) device.edges
        (directRound endpoints world round (round &&& 1) device.edges) :=
      direct_round_trims range (inGraph _) here.sized
    exact ih (here.next trims) (Nat.le_add_right _ _)

/-- What the thresholds of a run promise. -/
structure Planned (edgeBits : Nat) (run : TrimRun) : Prop where
  range : 1 ≤ edgeBits ∧ edgeBits ≤ 32
  bucketed : run.productionBucketedMark = true → 24 ≤ edgeBits
  slean : run.productionSlean = true → run.productionBucketedMark = true
  fine : run.productionFine = true → run.productionBucketedMark = true ∧
    run.bucketRounds = run.fineTransitionRound ∧ run.fineEndRound = run.rounds ∧
    1 ≤ run.fineTransitionRound ∧ run.fineTransitionRound + 1 < run.rounds
  small : run.rounds < 4294967296
  batches : run.productionFine = true ∨ run.liveWork = true ∨ run.rounds ≤ 4294967280

/-- The slean rounds of a run are laid out as their kernels assume. It is asked of slean rounds
    only. -/
def LaidOut (solver : GpuWgpuSolver) (edgeBits : Nat) (prepared : Prepared) : Prop :=
  prepared.run.productionSlean = true → ∃ buckets parts,
    SleanLayout.Sized solver edgeBits prepared.sizing buckets parts ∧ parts ≤ buckets ∧
      localBytes solver edgeBits < 65536

variable {prepared : Prepared}

/-- The next rounds in the bitmap do not go beyond the end, nor beyond the transition. -/
theorem bitmap_rounds_end (planned : Planned edgeBits prepared.run)
    (laid_out : LaidOut solver edgeBits prepared)
    (inGraph : ∀ side edge, endpoints side edge < 2 ^ edgeBits)
    (here : InBitmap endpoints edgeBits round device) (before : round < prepared.run.rounds)
    (early : prepared.run.productionFine = true → round < prepared.run.fineTransitionRound) :
    Ends flag (bitmapRounds solver endpoints world prepared round device)
      (fun next => round < next.1 ∧ next.1 ≤ prepared.run.rounds ∧
        InBitmap endpoints edgeBits next.1 next.2 ∧ (prepared.run.productionFine = true →
          next.1 ≤ prepared.run.fineTransitionRound)) fails := by
  obtain ⟨low, high⟩ := planned.range
  have after_one : ∀ edges, Trims endpoints edgeBits (round &&& 1) device.edges edges →
      Ends flag (pure (round + 1, { device with edges := edges }) : Task Fault (Nat × Device))
        (fun next => round < next.1 ∧ next.1 ≤ prepared.run.rounds ∧
          InBitmap endpoints edgeBits next.1 next.2 ∧ (prepared.run.productionFine = true →
            next.1 ≤ prepared.run.fineTransitionRound)) fails := by
    intro edges trims
    exact ends_pure ⟨Nat.lt_succ_self round, before, here.next trims, fun fine => early fine⟩
  rw [bitmapRounds]
  dsimp only
  split
  · rename_i slean
    obtain ⟨buckets, parts, sized, fewer, small⟩ := laid_out slean.1
    have large := planned.bucketed (planned.slean slean.1)
    refine ends_bind (ends_step (here.submits _)) fun _ _ => ?_
    exact ends_bind (slean_round_ends sized ⟨large, high⟩ small fewer (inGraph _) here.sized here.full)
      after_one
  · split
    · rename_i bucketed
      refine ends_bind (ends_step (here.submits _)) fun _ _ => ?_
      exact ends_bind (bucketed_round_ends ⟨planned.bucketed bucketed.1, high⟩ (inGraph _) here.sized
        here.full) after_one
    · rename_i not_slean not_bucketed
      -- Before the transition all rounds are slean or bucketed.
      have not_fine : prepared.run.productionFine ≠ true := by
        intro fine
        obtain ⟨marked, same, _, _, _⟩ := planned.fine fine
        have inside := early fine
        rw [← same] at inside
        by_cases slean : prepared.run.productionSlean = true
        · exact not_slean ⟨slean, inside⟩
        · exact not_bucketed ⟨marked, slean, inside⟩
      have small := planned.small
      have batches := planned.batches
      refine ends_bind (ends_step (here.submits _)) fun _ _ => ?_
      have fits : round < (runLeanBatch endpoints world round prepared.run.rounds
          prepared.run.liveWork device.edges).1 ∧ (runLeanBatch endpoints world round
          prepared.run.rounds prepared.run.liveWork device.edges).1 ≤ prepared.run.rounds := by
        simp only [runLeanBatch, roundsPerSubmission, asU32]
        rcases batches with fine | live | few
        · exact absurd fine not_fine
        · rw [live]
          simp only [if_true]
          omega
        · split <;> omega
      refine ends_pure ⟨fits.1, fits.2, ?_, fun fine => absurd fine not_fine⟩
      exact encode_lean_rounds_next planned.range inGraph here _ (Nat.le_of_lt fits.1)

end Rounds

end CuckatooMiner.WgpuTrim
