import Mathlib
import CuckatooMiner.WgpuRounds

/-!
# The GPU trim is exact

The transition and every fine round keep their arena sorted, and only the adapter can refuse
one. A run therefore ends with the edges that survive its rounds, each once, unless a raised
flag stops it or the adapter is too small; no check that it makes of its own work fails, and
no work is submitted with a buffer that was given up.
-/

namespace CuckatooMiner.WgpuTrim

open FineRound Outcome Polling Pruning
open Bucketed (groupsForWords words_launch)
open FineSeed (Unsupported buildFineCsr allocate_fine_seed_shard_gives allocate_fine_storage_gives
  allocate_fine_trim_storage_gives build_fine_csr_error build_fine_csr_ok build_fine_csr_returns
  counted_alive)
open GpuLean (GraphSize Mates Params inOrder init_edges_live liveEdges readBitmapSurvivors)
open LeanRound (Bitmap)
open PackedBits (members)
open Segments (ncard_of_listed)
open SleanLayout (GpuWgpuSolver LayoutFits Limits layout_fits_iff localBytes newWithConfig
  sleanSolver slean_sizing_ok)
open Solver (GraphParams SolveError)
open TrimRun (Compact FineCsrArena TrimOptions allBuckets all_buckets_spec fineBuckets
  fineSeedGroup fineTrimGroup givenUp readFineSurvivors read_bitmap_spec read_fine_survivors_eq
  side_of_round survivors)
open TwoCore (graph)

/-! ## Refusals -/

/-- A refusal that the adapter has no room. Where there is room it is no reason for a failure. -/
def Refused (room : Prop) (fault : Fault) : Prop :=
  ¬ room ∧ ∃ error, fault = .solver error ∧ Unsupported error

/-- A step that returns where there is room, and is only refused as unsupported, is refused for
    want of room. -/
theorem gives_refused {α : Type} {room : Prop} {value : α → Prop} {result : Except SolveError α}
    (holds : ∀ found, result = .ok found → value found)
    (refused : ∀ error, result = .error error → Unsupported error)
    (returns : room → ∃ found, result = .ok found) :
    Gives (result.mapError .solver) value (Refused room) := by
  apply gives_map_error
  refine ⟨holds, fun error failed => ⟨fun enough => ?_, error, rfl, refused error failed⟩⟩
  obtain ⟨found, returned⟩ := returns enough
  rw [failed] at returned
  cases returned

section Refusals

variable (limits : Limits) (gib : Nat → String) (endpoints : Nat → Nat → Nat) (edgeBits side : Nat)

/-- A round without gaps is only refused as unsupported. -/
theorem trim_fine_csr_once_gives (orders : CsrOrders) (arena : FineCsrArena) :
    Gives (trimFineCsrOnce limits gib endpoints edgeBits side orders arena) (fun _ => True)
      Unsupported :=
  gives_bind (allocate_fine_trim_storage_gives limits gib _) fun _ _ => gives_ok trivial

variable {endpoints edgeBits side} {live : Set Nat}

/-- So is a round with a fixed attempt first. -/
theorem trim_fine_round_gives (large : 20 ≤ edgeBits)
    (inGraph : ∀ side edge, endpoints side edge < 2 ^ edgeBits) (schedule : Reservation.Schedule)
    (orders : CsrOrders) {arena : FineCsrArena} (lists : Lists endpoints edgeBits side live arena) :
    Gives (trimFineRound limits gib endpoints edgeBits side schedule orders arena) (fun _ => True)
      Unsupported := by
  obtain ⟨attempt, _, attempted, _⟩ :=
    trim_fine_fixed_once_spec large inGraph limits schedule lists
  rw [trimFineRound, bind_of_ok _ _ _ attempted]
  cases attempt with
  | some found => exact gives_ok trivial
  | none =>
    exact gives_bind (trim_fine_csr_once_gives limits gib endpoints edgeBits side orders _)
      fun _ _ => gives_ok trivial

/-- Asked for the number of live edges, so is the sharded transition. -/
theorem build_sharded_gives (inGraph : ∀ side edge, endpoints side edge < 2 ^ edgeBits)
    (orders : ShardOrders) {edges : Bitmap} (countable : FineRound.Countable edges) :
    Gives (buildShardedFineSeedAndTrim limits gib endpoints edgeBits side orders
      (members 0 edges).length edges) (fun _ => True) Unsupported := by
  have counted : Gives (shardedSeedHistogram endpoints edgeBits side orders.histogram
      (members 0 edges).length edges) (fun _ => True) Unsupported := by
    have total : (fineHistogramAlive endpoints edgeBits side orders.histogram edges
        (List.replicate fineBuckets 0)).sum = (members 0 edges).length := by
      have counts : fineHistogramAlive endpoints edgeBits side orders.histogram edges
          (List.replicate fineBuckets 0) = FineSeed.seedCounts endpoints edgeBits side edges :=
        FineSeed.ordered_counts orders.histogram countable
      rw [counts, FineSeed.seed_counts_sum inGraph countable]
    rw [shardedSeedHistogram, if_neg (not_not.mpr total)]
    exact gives_ok trivial
  refine gives_bind counted fun counts _ => ?_
  refine gives_bind (allocate_fine_seed_shard_gives limits gib counts 0) fun low _ => ?_
  refine gives_bind (allocate_fine_seed_shard_gives limits gib counts 1) fun high _ => ?_
  exact gives_bind (allocate_fine_storage_gives limits gib _ _) fun _ _ => gives_ok trivial

end Refusals

/-! ## Arenas of a run -/

section Run

variable {solver : GpuWgpuSolver} {adapter : Adapter} {endpoints : Nat → Nat → Nat}
  {edgeBits round side : Nat} {world : World edgeBits} {flag : Nat → Bool} {device : Device}
  {live : Set Nat} {arena : FineCsrArena}

/-- An arena counts the edges that it lists. -/
theorem lists_count (inGraph : ∀ side edge, endpoints side edge < 2 ^ edgeBits)
    (lists : Lists endpoints edgeBits side live arena) : arena.survivorCount = live.ncard := by
  obtain ⟨unique, listed⟩ := all_buckets_spec inGraph lists.holds
  have counts : (List.range fineBuckets).map (arena.counts.getD · 0) = arena.counts := by
    have read := StridedSweep.read_range arena.counts 0 0 fineBuckets
      (by rw [lists.holds.buckets, Nat.zero_add])
    rwa [List.drop_zero, ← lists.holds.buckets, List.take_length, ← List.range_eq_range',
      lists.holds.buckets] at read
  have sizes : (List.range fineBuckets).map (fun b => (arena.bucket b).length) =
      (List.range fineBuckets).map (arena.counts.getD · 0) :=
    List.map_congr_left fun b member => lists.size b (List.mem_range.mp member)
  rw [ncard_of_listed unique listed, lists.holds.total, allBuckets, List.length_flatMap, sizes,
    counts]

/-- Survivors are edges of the graph. -/
theorem survivors_inside (endpoints : Nat → Nat → Nat) (edgeBits round : Nat) :
    survivors endpoints edgeBits round ⊆ ↑(Finset.range (2 ^ edgeBits)) := by
  intro edge member
  rw [Finset.coe_range]
  exact trim_rounds_subset round member

/-- There are no more survivors than edges. -/
theorem survivors_ncard_graph (endpoints : Nat → Nat → Nat) (edgeBits round : Nat) :
    (survivors endpoints edgeBits round).ncard ≤ 2 ^ edgeBits := by
  have fewer := Set.ncard_le_ncard (survivors_inside endpoints edgeBits round)
    (Finset.finite_toSet _)
  rwa [Set.ncard_coe_finset, Finset.card_range] at fewer

/-- Trimming further leaves no more edges. -/
theorem survivors_ncard_le (endpoints : Nat → Nat → Nat) (edgeBits : Nat) {early late : Nat}
    (ordered : early ≤ late) :
    (survivors endpoints edgeBits late).ncard ≤ (survivors endpoints edgeBits early).ncard :=
  Set.ncard_le_ncard (trim_rounds_antitone early late ordered)
    ((Finset.finite_toSet _).subset (survivors_inside endpoints edgeBits early))

/-- A run starts with all edges. -/
theorem initialize_edges_live (range : 1 ≤ edgeBits ∧ edgeBits ≤ 32) :
    InBitmap endpoints edgeBits 0 ⟨initializeEdges world, []⟩ := by
  have launch := words_launch range.1 range.2
  have stored := launch.word_count
  obtain ⟨length, live⟩ := init_edges_live launch world.initial
    (LeanRound.clearNodes (GraphSize.new edgeBits).wordCount) (List.length_replicate.trans stored.symm)
  exact ⟨length.trans stored, live, rfl⟩

/-- The adapter can hold and bind an arena of the edges that are live at the transition. -/
def FineRoom (solver : GpuWgpuSolver) (endpoints : Nat → Nat → Nat) (edgeBits transition : Nat) :
    Prop :=
  arenaBytes (survivors endpoints edgeBits transition).ncard ≤ solver.limits.maxBufferSize ∧
    arenaBytes (survivors endpoints edgeBits transition).ncard ≤
      solver.limits.maxStorageBufferBindingSize

/-- The live edges of the bitmap are as many as survive. -/
theorem InBitmap.count (here : InBitmap endpoints edgeBits round device) :
    (members 0 device.edges).length = (survivors endpoints edgeBits round).ncard := by
  rw [← here.live]
  exact (ncard_of_listed (members_nodup device.edges) (mem_members_live device.edges)).symm

/-- Few enough survivors can be counted. -/
theorem InBitmap.countable (here : InBitmap endpoints edgeBits round device)
    (few : (survivors endpoints edgeBits round).ncard + workgroupSize ≤ u32Modulus) :
    FineRound.Countable device.edges := by
  rw [FineRound.Countable, here.count]
  exact few

/-- A list of the edges that survive some rounds, each once. The order is left open. -/
def Survivors (endpoints : Nat → Nat → Nat) (edgeBits rounds : Nat) (listed : List Nat) : Prop :=
  listed.Nodup ∧ ∀ edge, edge ∈ listed ↔ edge ∈ survivors endpoints edgeBits rounds

/-- The state of a run between fine rounds. -/
structure InArena (endpoints : Nat → Nat → Nat) (edgeBits round endRound : Nat)
    (arena : FineCsrArena) : Prop where
  lists : Lists endpoints edgeBits (round % 2) (survivors endpoints edgeBits round) arena
  compact : round = endRound → Compact arena

/-- The other side of a round is that of the next. -/
theorem other_side (round : Nat) : (round &&& 1) ^^^ 1 = (round + 1) % 2 := by
  rw [(side_of_round round).1]
  exact Verify.flip_parity round

/-- What a round leaves belongs to the next. -/
theorem left_next {next : FineCsrArena}
    (left : Left endpoints edgeBits (round &&& 1) (survivors endpoints edgeBits round) next) :
    Lists endpoints edgeBits ((round + 1) % 2) (survivors endpoints edgeBits (round + 1)) next := by
  have lists := left.lists
  rw [other_side, (side_of_round round).1] at lists
  exact lists

variable {transition endRound : Nat} (large : 24 ≤ edgeBits)
  (inGraph : ∀ side edge, endpoints side edge < 2 ^ edgeBits)

include large inGraph

/-- A fine round leads to the next, unless the adapter has no room. -/
theorem fine_round_gives (later : transition ≤ round)
    (kept : ∀ buffer ∈ fineTrimGroup, buffer ∉ device.destroyed)
    (here : InArena endpoints edgeBits round endRound arena) :
    Gives (fineRound solver adapter endpoints world endRound round device arena)
      (InArena endpoints edgeBits (round + 1) endRound)
      (Refused (FineRoom solver endpoints edgeBits transition)) := by
  have enough : 20 ≤ edgeBits := Nat.le_trans (by decide) large
  have lists := here.lists
  rw [← (side_of_round round).1] at lists
  have bindable (room : FineRoom solver endpoints edgeBits transition) :
      arenaBytes arena.survivorCount ≤ solver.limits.maxStorageBufferBindingSize := by
    rw [lists_count inGraph lists]
    exact (arena_bytes_mono (survivors_ncard_le endpoints edgeBits later)).trans room.2
  refine gives_bind (submit_gives kept) fun _ _ => ?_
  split
  · rename_i more
    have trimmed : Gives ((trimFineRound solver.limits adapter.gib endpoints edgeBits (round &&& 1)
        (world.fixed round) (world.csr round) arena).mapError .solver)
        (fun found => Left endpoints edgeBits (round &&& 1) (survivors endpoints edgeBits round) found.1)
        (Refused (FineRoom solver endpoints edgeBits transition)) := by
      apply gives_refused
      · rintro ⟨next, writes⟩ ended
        exact (trim_fine_round_left enough inGraph _ _ _ _ lists next writes ended).1
      · exact (trim_fine_round_gives _ _ enough inGraph _ _ lists).failed
      · intro room
        exact trim_fine_round_returns enough inGraph _ _ _ _ lists (bindable room)
    refine gives_bind trimmed ?_
    rintro ⟨next, writes⟩ left
    exact gives_ok ⟨left_next left, fun last => absurd last (Nat.ne_of_lt more)⟩
  · have trimmed : Gives ((trimFineCsrOnce solver.limits adapter.gib endpoints edgeBits (round &&& 1)
        (world.csr round) arena).mapError .solver)
        (fun found => Left endpoints edgeBits (round &&& 1) (survivors endpoints edgeBits round)
          found.1 ∧ Compact found.1)
        (Refused (FineRoom solver endpoints edgeBits transition)) := by
      apply gives_refused
      · rintro ⟨next, writes⟩ ended
        have left := trim_fine_csr_once_left enough inGraph _ _ _ lists next writes ended
        exact ⟨left.1, left.2.1⟩
      · exact (trim_fine_csr_once_gives _ _ endpoints edgeBits _ _ arena).failed
      · intro room
        exact trim_fine_csr_once_returns enough inGraph _ _ _ lists (bindable room)
    refine gives_bind trimmed ?_
    rintro ⟨next, writes⟩ ⟨left, compact⟩
    exact gives_ok ⟨left_next left, fun _ => compact⟩

/-- The fine rounds lead to an arena without gaps, unless the adapter has no room. -/
theorem run_fine_rounds_end (later : transition ≤ round) (ordered : round ≤ endRound)
    (kept : ∀ buffer ∈ fineTrimGroup, buffer ∉ device.destroyed)
    (here : InArena endpoints edgeBits round endRound arena) :
    Ends flag (runFineRounds solver adapter endpoints world round endRound device arena)
      (InArena endpoints edgeBits endRound endRound)
      (Refused (FineRoom solver endpoints edgeBits transition)) := by
  obtain ⟨count, rfl⟩ := Nat.exists_eq_add_of_le ordered
  rw [runFineRounds, Nat.add_sub_cancel_left]
  apply ends_range (fun i arena => InArena endpoints edgeBits i (round + count) arena)
  · intro i further _ arena here
    apply ends_stop_then
    apply ends_step
    exact fine_round_gives large inGraph (Nat.le_trans later further) kept here
  · exact here

/-! ## The transition -/

/-- What the transition leaves: the survivors in buckets of the next round, without gaps. -/
structure Seeded (endpoints : Nat → Nat → Nat) (edgeBits round : Nat)
    (found : FineCsrArena × Nat × Device) : Prop where
  soon : round ≤ found.2.1 ∧ found.2.1 ≤ round + 1
  lists : Lists endpoints edgeBits (found.2.1 % 2) (survivors endpoints edgeBits found.2.1) found.1
  compact : Compact found.1
  kept : ∀ buffer ∈ fineTrimGroup, buffer ∉ found.2.2.destroyed

/-- The transition passes all its checks, unless the adapter has no room. -/
theorem build_fine_transition_seed_gives (high : edgeBits ≤ 32) (sharded : Bool)
    (few : (survivors endpoints edgeBits round).ncard + workgroupSize ≤ u32Modulus)
    (here : InBitmap endpoints edgeBits round device) :
    Gives (buildFineTransitionSeed solver adapter endpoints world sharded round device)
      (Seeded endpoints edgeBits round)
      (Refused (FineRoom solver endpoints edgeBits round)) := by
  have enough : 20 ≤ edgeBits := Nat.le_trans (by decide) large
  have launch := words_launch (Nat.le_trans (by decide) large) high
  have countable := here.countable few
  have counted := counted_alive launch here.sized countable world.alive
  have submits : ∀ buffer ∈ fineSeedGroup, buffer ∉ device.destroyed ++ givenUp := by
    rw [here.kept]
    decide
  have keeps : ∀ buffer ∈ fineTrimGroup, buffer ∉ device.destroyed ++ givenUp ++ [.edges] := by
    rw [here.kept]
    decide
  have live := here.live
  rw [buildFineTransitionSeed]
  refine gives_bind (submit_gives submits) fun _ _ => ?_
  refine gives_bind (submit_gives submits) fun _ _ => ?_
  rw [show (device.destroy givenUp).edges = device.edges from rfl, counted]
  split
  · have built : Gives ((buildShardedFineSeedAndTrim solver.limits adapter.gib endpoints edgeBits
        (round &&& 1) world.shards (members 0 device.edges).length device.edges).mapError .solver)
        (fun found => Left endpoints edgeBits (round &&& 1) (survivors endpoints edgeBits round)
          found.1 ∧ Compact found.1)
        (Refused (FineRoom solver endpoints edgeBits round)) := by
      apply gives_refused
      · rintro ⟨arena, writes⟩ ended
        have left := build_sharded_fine_seed_and_trim_left enough inGraph _ _ _ _ _ countable arena
          writes ended
        rw [live] at left
        exact ⟨left.1, left.2.1⟩
      · exact (build_sharded_gives _ _ inGraph _ countable).failed
      · rintro ⟨fits, bindable⟩
        rw [← here.count] at fits bindable
        exact build_sharded_fine_seed_and_trim_returns enough inGraph _ _ _ _ countable fits bindable
    refine gives_bind built ?_
    rintro ⟨arena, writes⟩ ⟨left, compact⟩
    exact gives_ok ⟨⟨Nat.le_succ _, Nat.le_refl _⟩, left_next left, compact, keeps⟩
  · have built : Gives ((buildFineCsr solver.limits adapter.gib endpoints edgeBits
        (round &&& 1) world.seed (members 0 device.edges).length device.edges).mapError .solver)
        (fun found => Lists endpoints edgeBits (round &&& 1) (survivors endpoints edgeBits round)
          found.1 ∧ Compact found.1)
        (Refused (FineRoom solver endpoints edgeBits round)) := by
      apply gives_refused
      · rintro ⟨arena, writes⟩ ended
        obtain ⟨_, lists, _, compact, _⟩ := build_fine_csr_ok inGraph _ _ _ _ countable arena writes ended
        rw [live] at lists
        exact ⟨lists, compact⟩
      · exact build_fine_csr_error inGraph _ _ _ countable
      · rintro ⟨fits, bindable⟩
        rw [← here.count] at fits bindable
        exact build_fine_csr_returns inGraph _ _ _ countable fits bindable
    refine gives_bind built ?_
    rintro ⟨arena, writes⟩ ⟨lists, compact⟩
    rw [(side_of_round round).1] at lists
    exact gives_ok ⟨⟨Nat.le_refl _, Nat.le_succ _⟩, lists, compact, keeps⟩

/-! ## Whole runs -/

/-- A caller who heeds the flag goes on with the survivors of the fine rounds. -/
theorem run_fine_transition_ends (high : edgeBits ≤ 32) (sharded : Bool)
    (stays : NeverReset flag) {rest : Option (List Nat) × Device → Task Fault (List Nat)}
    {value : List Nat → Prop}
    (few : (survivors endpoints edgeBits round).ncard + workgroupSize ≤ u32Modulus)
    (before : round < endRound) (here : InBitmap endpoints edgeBits round device)
    (following : ∀ listed device, Survivors endpoints edgeBits endRound listed →
      Ends flag (rest (some listed, device)) value
        (Refused (FineRoom solver endpoints edgeBits round)))
    (heeds : ∀ device, Heeds flag (rest (none, device))) :
    Ends flag (runFineTransition solver adapter endpoints world round endRound sharded device >>= rest)
      value (Refused (FineRoom solver endpoints edgeBits round)) := by
  rw [runFineTransition, bind_assoc]
  refine ends_bind (ends_step (build_fine_transition_seed_gives large inGraph high sharded few here)) ?_
  rintro ⟨arena, start, device⟩ ⟨⟨early, late⟩, lists, compact, kept⟩
  dsimp only at early late lists compact kept ⊢
  rw [bind_assoc]
  refine ends_resumed stays (run_fine_rounds_end large inGraph early (by omega) kept
    ⟨lists, fun _ => compact⟩) ?_ ?_
  · intro arena done
    rw [pure_bind]
    obtain ⟨unique, members⟩ := all_buckets_spec inGraph done.lists.holds
    rw [← read_fine_survivors_eq done.lists.holds (done.compact rfl)] at unique members
    exact following _ _ ⟨unique, members⟩
  · rw [pure_bind]
    exact heeds device

omit large

/-- A run lists the survivors of its rounds. -/
theorem run_rounds_end {prepared : Prepared} (planned : Planned edgeBits prepared.run)
    (laid_out : LaidOut solver edgeBits prepared) (stays : NeverReset flag)
    (few : prepared.run.productionFine = true →
      (survivors endpoints edgeBits prepared.run.fineTransitionRound).ncard + workgroupSize ≤
        u32Modulus)
    (turns : Nat) (enough : prepared.run.rounds < round + turns) (inside : round ≤ prepared.run.rounds)
    (waiting : prepared.run.productionFine = true → round < prepared.run.fineTransitionRound)
    (here : InBitmap endpoints edgeBits round device) :
    Ends flag (runRounds solver adapter endpoints world prepared turns round device)
      (Survivors endpoints edgeBits prepared.run.rounds)
      (fun fault => prepared.run.productionFine = true ∧
        Refused (FineRoom solver endpoints edgeBits prepared.run.fineTransitionRound) fault) := by
  induction turns generalizing round device with
  | zero => omega
  | succ turns ih =>
    rw [runRounds]
    split
    · rename_i before
      apply ends_stop_then
      refine ends_bind (bitmap_rounds_end planned laid_out inGraph here before waiting) ?_
      rintro ⟨next, after⟩ ⟨further, most, there, in_time⟩
      dsimp only at further most there in_time ⊢
      apply ends_stop_then
      rw [reportRound]
      split
      · rename_i time
        obtain ⟨fine, rfl, left⟩ := time
        obtain ⟨marked, _, to_the_end, _, some_left⟩ := planned.fine fine
        rw [to_the_end] at left ⊢
        refine Ends.weaken (?_ : Ends flag _ (Survivors endpoints edgeBits prepared.run.rounds)
          (Refused (FineRoom solver endpoints edgeBits prepared.run.fineTransitionRound)))
          (fun _ found => found) fun _ refused => ⟨fine, refused⟩
        refine run_fine_transition_ends (planned.bucketed marked) inGraph planned.range.2 _ stays
          (few fine) left there ?_ ?_
        · intro listed device found
          exact ends_pure found
        · intro device
          -- A run whose fine rounds are cancelled has rounds left.
          have left_turns : ∃ rest, turns = rest + 1 := Nat.exists_eq_add_one.mpr (by omega)
          obtain ⟨rest, rfl⟩ := left_turns
          dsimp only
          rw [runRounds, if_pos left]
          exact heeds_stop_then
      · rename_i not_yet
        rw [pure_bind]
        refine ih (by omega) most (fun fine => ?_) there
        obtain ⟨_, _, to_the_end, _, some_left⟩ := planned.fine fine
        rcases Nat.lt_or_eq_of_le (in_time fine) with earlier | same
        · exact earlier
        · exact absurd ⟨fine, same, by omega⟩ not_yet
    · rename_i done
      obtain rfl : round = prepared.run.rounds := by omega
      refine ends_bind (ends_step (here.submits _)) fun _ _ => ?_
      exact ends_pure (read_bitmap_spec here.live)

end Run

/-! ## Prepared runs -/

section Prepared

variable {solver : GpuWgpuSolver} {adapter : Adapter} {request : GraphParams} {rounds : Nat}
  {liveWork : Bool} {options : TrimOptions} {prepared : Prepared}

/-- A prepared run has the thresholds of its modes and the sizes of its slean rounds. -/
theorem prepare_trim_ok
    (ended : prepareTrim solver adapter request rounds liveWork options = .ok prepared) :
    (1 ≤ request.edgeBits ∧ request.edgeBits ≤ 32) ∧
      prepared.run = (TrimRun.prepareTrim request.edgeBits rounds options).trimRun request.edgeBits
        liveWork ∧
      SleanLayout.sleanSizing solver (TrimRun.prepareTrim request.edgeBits rounds
        options).productionSlean request.edgeBits = .ok prepared.sizing := by
  obtain ⟨_, graph, ended⟩ := (bind_ok_iff _ _ _).mp ended
  obtain ⟨sizing, sized, ended⟩ := (bind_ok_iff _ _ _).mp ended
  obtain ⟨_, _, ended⟩ := (bind_ok_iff _ _ _).mp ended
  cases ended
  refine ⟨?_, rfl, sized⟩
  rw [graphSizeNew] at graph
  by_cases outside : request.edgeBits = 0 ∨ request.edgeBits > 32
  · rw [if_pos outside] at graph
    cases graph
  · omega

/-- The thresholds of a prepared run fit together. -/
theorem prepare_trim_planned (small : rounds < 4294967296)
    (fits : (24 ≤ request.edgeBits ∧ options.bucketedMark = true) ∨ liveWork = true ∨
      rounds ≤ 4294967280)
    (ended : prepareTrim solver adapter request rounds liveWork options = .ok prepared) :
    Planned request.edgeBits prepared.run := by
  obtain ⟨range, same, _⟩ := prepare_trim_ok ended
  have plan := TrimRun.trim_run_plan small fits
  rw [← same] at plan
  have fine_mode : prepared.run.productionFine =
      (TrimRun.prepareTrim request.edgeBits rounds options).productionFine := by rw [same]; rfl
  refine ⟨range, fun marked => ?_, fun slean => ?_, fun fine => ?_, plan.small, plan.fits⟩
  · rw [same] at marked
    simp only [TrimRun.PreparedTrim.trimRun, TrimRun.prepareTrim, Bool.and_eq_true,
      decide_eq_true_eq] at marked
    exact marked.2
  · rw [same] at slean ⊢
    simp only [TrimRun.PreparedTrim.trimRun, TrimRun.prepareTrim, Bool.and_eq_true] at slean ⊢
    exact slean.2
  · have many : 4 < rounds ∧ prepared.run.rounds = rounds := by
      rw [fine_mode] at fine
      simp only [TrimRun.prepareTrim, Bool.and_eq_true, decide_eq_true_eq] at fine
      exact ⟨fine.2, by rw [same]; rfl⟩
    refine ⟨plan.bucketed fine, plan.early fine, plan.to_the_end fine, ?_⟩
    rw [fine_mode] at fine
    have transition : prepared.run.fineTransitionRound = 2 ∨ prepared.run.fineTransitionRound = 3 := by
      rw [same]
      simp only [TrimRun.PreparedTrim.trimRun, fine, if_true]
      split
      · exact Or.inr rfl
      · exact Or.inl rfl
    omega

/-- The slean rounds of a prepared run are laid out as their kernels assume, if the layout
    fits. -/
theorem prepare_trim_laid_out (accepted : newWithConfig solver.config = .ok solver.config)
    (fits : options.slean = true → 24 ≤ request.edgeBits →
      LayoutFits solver request.edgeBits ∧ localBytes solver request.edgeBits < 65536)
    (ended : prepareTrim solver adapter request rounds liveWork options = .ok prepared) :
    LaidOut solver request.edgeBits prepared := by
  obtain ⟨range, same, sized⟩ := prepare_trim_ok ended
  intro slean
  have mode : (TrimRun.prepareTrim request.edgeBits rounds options).productionSlean = true := by
    rw [same] at slean
    exact slean
  have wanted : options.slean = true ∧ 24 ≤ request.edgeBits := by
    simp only [TrimRun.prepareTrim, Bool.and_eq_true, decide_eq_true_eq] at mode
    exact ⟨mode.1, mode.2.2⟩
  obtain ⟨layout, small⟩ := fits wanted.1 wanted.2
  rw [mode] at sized
  obtain ⟨buckets, parts, made, doublings, reached, first⟩ := slean_sizing_ok accepted sized
  have few := (layout_fits_iff made ⟨wanted.2, range.2⟩ doublings reached first).mp layout
  exact ⟨buckets, parts, made, few.2.2, small⟩

end Prepared

/-- The round before which a run with fine rounds goes over to them. -/
def transitionRound (options : TrimOptions) : Nat := if options.slean then 3 else 2

/-- What a run relies on: accepted settings, endpoints in the graph, slean rounds whose layout
    fits, batches that end within thirty-two bits, and few enough survivors to be stepped over
    in thirty-two bits. The source checks the settings and none of the others. Of the graph only
    the number of survivors before the fine rounds matters, and only at thirty-two edge bits. -/
structure Suited (solver : GpuWgpuSolver) (endpoints : Nat → Nat → Nat) (edgeBits rounds : Nat)
    (liveWork : Bool) (options : TrimOptions) : Prop where
  accepted : newWithConfig solver.config = .ok solver.config
  inGraph : ∀ side edge, endpoints side edge < 2 ^ edgeBits
  layout : options.slean = true → 24 ≤ edgeBits →
    LayoutFits solver edgeBits ∧ localBytes solver edgeBits < 65536
  small : rounds < 4294967296
  batches : (24 ≤ edgeBits ∧ options.bucketedMark = true) ∨ liveWork = true ∨ rounds ≤ 4294967280
  few : edgeBits < 32 ∨
    (survivors endpoints edgeBits (transitionRound options)).ncard + workgroupSize ≤ u32Modulus

/-- How a run may fail: it was refused beforehand, or its fine rounds have no room. No internal
    check of a run is among the reasons. -/
def TrimFails (solver : GpuWgpuSolver) (adapter : Adapter) (endpoints : Nat → Nat → Nat)
    (request : GraphParams) (rounds : Nat) (liveWork : Bool) (options : TrimOptions)
    (fault : Fault) : Prop :=
  (∃ error, fault = .solver error ∧
    prepareTrim solver adapter request rounds liveWork options = .error error) ∨
  (options.bucketedMark = true ∧ 24 ≤ request.edgeBits ∧ 4 < rounds) ∧
    Refused (FineRoom solver endpoints request.edgeBits (transitionRound options)) fault

/-- In every mode a run lists the survivors of its rounds. -/
theorem trim_with_mark_mode_ends {solver : GpuWgpuSolver} {adapter : Adapter}
    {endpoints : Nat → Nat → Nat} {request : GraphParams} {world : World request.edgeBits}
    {rounds turns : Nat} {liveWork : Bool} {options : TrimOptions} {flag : Nat → Bool}
    (suited : Suited solver endpoints request.edgeBits rounds liveWork options)
    (stays : NeverReset flag) (enough : rounds < turns) :
    Ends flag (trimWithMarkMode solver adapter endpoints request world rounds liveWork options turns)
      (Survivors endpoints request.edgeBits rounds)
      (TrimFails solver adapter endpoints request rounds liveWork options) := by
  have prepares : Gives ((prepareTrim solver adapter request rounds liveWork options).mapError
      Fault.solver)
      (fun prepared => prepareTrim solver adapter request rounds liveWork options = .ok prepared)
      (TrimFails solver adapter endpoints request rounds liveWork options) :=
    gives_map_error ⟨fun _ ended => ended, fun error failed => Or.inl ⟨error, rfl, failed⟩⟩
  rw [trimWithMarkMode]
  refine ends_bind (ends_step prepares) fun prepared ended => ?_
  obtain ⟨range, same, _⟩ := prepare_trim_ok ended
  have planned := prepare_trim_planned suited.small suited.batches ended
  have laid_out := prepare_trim_laid_out suited.accepted suited.layout ended
  have rounds_eq : prepared.run.rounds = rounds := by
    rw [same]
    rfl
  have fine_iff : prepared.run.productionFine = true ↔
      options.bucketedMark = true ∧ 24 ≤ request.edgeBits ∧ 4 < rounds := by
    rw [same]
    simp only [TrimRun.PreparedTrim.trimRun, TrimRun.prepareTrim, Bool.and_eq_true,
      decide_eq_true_eq, and_assoc]
    exact Iff.rfl
  have transition (fine : prepared.run.productionFine = true) :
      prepared.run.fineTransitionRound = transitionRound options := by
    obtain ⟨wanted, large, many⟩ := fine_iff.mp fine
    have modes : (TrimRun.prepareTrim request.edgeBits rounds options).productionFine = true ∧
        (TrimRun.prepareTrim request.edgeBits rounds options).productionSlean = options.slean := by
      simp only [TrimRun.prepareTrim, wanted, Bool.true_and, decide_eq_true_eq,
        decide_eq_true (show request.edgeBits ≥ TrimRun.bucketedMarkMinEdgeBits from large),
        Bool.and_true, and_true]
      exact many
    rw [same, transitionRound]
    simp only [TrimRun.PreparedTrim.trimRun, modes.1, modes.2, if_true]
  have few (fine : prepared.run.productionFine = true) : (survivors endpoints request.edgeBits
      prepared.run.fineTransitionRound).ncard + workgroupSize ≤ u32Modulus := by
    rw [transition fine]
    rcases suited.few with small | few
    · have most := survivors_ncard_graph endpoints request.edgeBits (transitionRound options)
      have power : (2 : Nat) ^ request.edgeBits ≤ 2 ^ 31 := Nat.pow_le_pow_right (by decide) (by omega)
      rw [workgroupSize, u32Modulus]
      omega
    · exact few
  have starts : InBitmap endpoints request.edgeBits 0 ⟨initializeEdges world, []⟩ :=
    initialize_edges_live range
  have waiting (fine : prepared.run.productionFine = true) : 0 < prepared.run.fineTransitionRound :=
    (planned.fine fine).2.2.2.1
  have run : Ends flag (runRounds solver adapter endpoints world prepared turns 0 _) _ _ :=
    run_rounds_end suited.inGraph planned laid_out stays few turns (by omega) (Nat.zero_le _) waiting
      starts
  rw [rounds_eq] at run
  refine run.weaken (fun _ found => found) ?_
  rintro fault ⟨fine, refused⟩
  rw [transition fine] at refused
  exact Or.inr ⟨fine_iff.mp fine, refused⟩

/-- Whatever the orders of the threads and the contents of the other buffers, and however the
    cancel flag is raised, a trim that ends lists the edges that survive its rounds, each once;
    it stops for the raised flag only; and it fails only if the run was refused beforehand, or
    if its fine rounds have no room. The settings, the graph and the flag are those on which the
    kernels can rely (`Suited`, `NeverReset`); outside of them a run may list other edges, leave
    its arrays or not end. -/
theorem trim_ends (solver : GpuWgpuSolver) (adapter : Adapter) (endpoints : Nat → Nat → Nat)
    (request : GraphParams) (world : World request.edgeBits) (rounds : Nat) (liveWork : Bool)
    (turns : Nat) (flag : Nat → Bool)
    (suited : Suited solver endpoints request.edgeBits rounds liveWork (trimOptions solver))
    (stays : NeverReset flag) (enough : rounds < turns) :
    Ends flag (trim solver adapter endpoints request world rounds liveWork turns)
      (Survivors endpoints request.edgeBits rounds)
      (TrimFails solver adapter endpoints request rounds liveWork (trimOptions solver)) :=
  trim_with_mark_mode_ends suited stays enough

/-- All threads of a chunk come in turn. -/
def chunkInOrder : Bucketed.ChunkSchedule := ⟨⟨fun _ => inOrder, inOrder⟩, inOrder, fun _ => inOrder⟩

/-- All threads come in turn, and all buffers hold zeros. -/
def worldInOrder (edgeBits : Nat) : World edgeBits where
  initial := inOrder
  slean _ := ⟨fun _ => inOrder, fun _ => inOrder, fun _ => inOrder⟩
  bucketed _ := ⟨fun _ => chunkInOrder, fun _ => chunkInOrder, ⟨inOrder, inOrder, inOrder⟩⟩
  direct _ := ⟨inOrder, inOrder, inOrder⟩
  alive := inOrder
  seed := ⟨inOrder, inOrder⟩
  shards := shardsInOrder
  fixed _ := inOrder
  csr _ := ⟨inOrder, inOrder⟩
  leftover _ := ⟨List.replicate (GraphSize.new edgeBits).wordCount 0#32, ⟨fun _ => 0⟩, ⟨fun _ => 0⟩,
    ⟨fun _ => 0⟩, List.length_replicate⟩

/-- Ninety rounds on graphs of 24 edge bits suit a solver whose slean rounds have four parts. -/
theorem four_parts_suited {endpoints : Nat → Nat → Nat}
    (inGraph : ∀ side edge, endpoints side edge < 2 ^ 24) :
    Suited (sleanSolver 4) endpoints 24 90 true (trimOptions (sleanSolver 4)) where
  accepted := by decide +kernel
  inGraph := inGraph
  layout _ _ := ⟨⟨by decide, by decide, 0, by decide +kernel, by decide +kernel⟩, by decide⟩
  small := by decide
  batches := Or.inr (Or.inl rfl)
  few := Or.inl (by decide)

/-- A flag that is raised for good at some time is never reset. -/
theorem raised_for_good (time : Nat) : NeverReset fun clock => decide (time ≤ clock) := by
  intro clock raised
  rw [decide_eq_true_eq] at raised ⊢
  omega

/-- Ninety rounds of such a solver on the even edges and their neighbours, with the flag raised
    at the twentieth reading. -/
theorem four_parts_trim :
    Ends (fun clock => decide (20 ≤ clock))
      (trim (sleanSolver 4) ⟨"adapter", toString⟩ (fun _ edge => edge % 2 ^ 24)
        ⟨⟨0#64, 0#64, 0#64, 0#64⟩, 24, 42, 90⟩ (worldInOrder 24) 90 true 91)
      (Survivors (fun _ edge => edge % 2 ^ 24) 24 90)
      (TrimFails (sleanSolver 4) ⟨"adapter", toString⟩ (fun _ edge => edge % 2 ^ 24)
        ⟨⟨0#64, 0#64, 0#64, 0#64⟩, 24, 42, 90⟩ 90 true (trimOptions (sleanSolver 4))) :=
  trim_ends (sleanSolver 4) ⟨"adapter", toString⟩ _ ⟨⟨0#64, 0#64, 0#64, 0#64⟩, 24, 42, 90⟩
    (worldInOrder 24) 90 true 91 _
    (four_parts_suited fun _ edge => Nat.mod_lt edge (Nat.two_pow_pos 24)) (raised_for_good 20)
    (by decide)

end CuckatooMiner.WgpuTrim
