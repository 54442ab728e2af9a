import Mathlib
import CuckatooMiner.SleanKernels

/-!
# Slean rounds are exact

Two invariants run over the parts. While the parts are marked, the node bitmap holds the
nodes of the parts marked so far and the arenas hold the last part scattered. While they
are trimmed, every edge of a trimmed part is kept exactly if it has a live mate, and the
other edges are untouched. Both say nothing once a counter has overflowed: a counter that
has overflowed stays so to the end of the round, where the backup is trimmed instead.
-/

namespace CuckatooMiner.Slean

open PackedBits Reservation LeanRound

section

variable (sizing : SleanSizing) (endpoint : Nat → Nat) (dense : Bool) (edges : Bitmap)

/-- The part of an edge. -/
def partOf (edge : Nat) : Nat := edge / sizing.partEdges

/-- No counter of the round has overflowed. The arenas and the dead lists of all parts share
    their counters, so it speaks of all parts done so far. -/
def Silent (buffers : Buffers) : Prop :=
  Quiet (sizing.params 0) buffers.arenas ∧ buffers.dead.read sizing.deadBucketCount = 0

/-- The buffers after some parts have been scattered and, but for the last, marked. After an
    overflow nothing is said of the nodes or the arenas. -/
structure Marked (count : Nat) (buffers : Buffers) : Prop where
  edges_kept : buffers.edges = edges
  size : buffers.nodes.length = sizing.wordCount
  nodes : Quiet (sizing.params 0) buffers.arenas → ∀ node, test buffers.nodes node = true ↔
    ∃ edge, test edges edge = true ∧ partOf sizing edge < min count (sizing.parts - 1) ∧
      endpoint edge = node
  resident : Quiet (sizing.params 0) buffers.arenas → ∀ part, count = part + 1 →
    Holds (sizing.params part) endpoint buffers.arenas (Taken (sizing.params part) dense edges)

/-- The buffers after the last and some earlier parts have been trimmed. After an overflow only
    the backup is promised, from which the round is repeated. -/
structure Trimmed (count : Nat) (buffers : Buffers) : Prop where
  backup : buffers.backup = edges
  edge_size : buffers.edges.length = sizing.wordCount
  nodes : Silent sizing buffers → ∀ node, test buffers.nodes node = true ↔
    ∃ edge, test edges edge = true ∧ endpoint edge = node
  live : Silent sizing buffers → ∀ edge, test buffers.edges edge = true ↔
    test edges edge = true ∧
      (partOf sizing edge < count ∨ partOf sizing edge = sizing.parts - 1 →
        Mated endpoint edges edge)

end

variable {sizing : SleanSizing} {endpoint : Nat → Nat} {edges : Bitmap}

/-- Clearing the counts of the buckets clears them. -/
theorem counts_cleared (part : Nat) (arenas : Arenas) (shard place : Nat)
    (small : place < sleanShardWidth (sizing.params part)) :
    (clearArenas (sizing.bucketCount / 4) arenas).read (shard, place) = 0 :=
  if_pos small

/-- Clearing the counts of the buckets keeps the overflow counters. -/
theorem quiet_clear_arenas (part other : Nat) (arenas : Arenas)
    (quiet : Quiet (sizing.params part) (clearArenas (sizing.bucketCount / 4) arenas)) :
    Quiet (sizing.params other) arenas := by
  intro shard small
  exact (if_neg (Nat.lt_irrefl (sizing.bucketCount / 4))).symm.trans (quiet shard small)

/-- A part has edges. -/
theorem part_edges_positive : 0 < sizing.partEdges := by
  obtain ⟨buckets, parts, powers⟩ := sizing.powers
  rw [powers.edges]
  exact Nat.two_pow_pos _

/-- An edge lies in its part alone. -/
theorem in_part_iff (part : Nat) (inside : part < sizing.parts) (edge : Nat) :
    InPart (sizing.params part) edge ↔ partOf sizing edge = part := by
  obtain ⟨buckets, parts, powers⟩ := sizing.powers
  have positive := @part_edges_positive sizing
  rw [InPart, powers.chunk_count part inside, partOf, Nat.div_eq_iff positive]
  have base : (sizing.params part).chunkBase = part * sizing.partEdges := rfl
  rw [base]
  omega

/-- A live edge lies in some part. -/
theorem part_of_live (size : edges.length = sizing.wordCount) (edge : Nat)
    (live : test edges edge = true) : partOf sizing edge < sizing.parts := by
  obtain ⟨buckets, parts, powers⟩ := sizing.powers
  have inside := inside_of_test edges edge live
  have fewer := powers.fewer
  have wide := powers.wide
  rw [size, Nat.div_lt_iff_lt_mul (by decide), powers.words] at inside
  rw [partOf, Nat.div_lt_iff_lt_mul part_edges_positive, powers.part_count, powers.edges, ← pow_add]
  refine Nat.lt_of_lt_of_eq inside ?_
  rw [show 32 = 2 ^ 5 from rfl, ← pow_add]
  congr 1
  omega

section

variable (orders : Orders) (dense : Bool)

/-- Scattering a part, with the counts cleared first. -/
theorem scatter_part (inGraph : ∀ edge, endpoint edge < 2 ^ sizing.edgeBits) (part : Nat)
    (inside : part < sizing.parts) (schedule : Schedule) (arenas : Arenas) (live : Bitmap)
    (quiet : Quiet (sizing.params 0) (sleanScatter (sizing.params part) endpoint schedule dense live
      (clearArenas (sizing.bucketCount / 4) arenas))) :
    Quiet (sizing.params 0) arenas ∧
      Holds (sizing.params part) endpoint (sleanScatter (sizing.params part) endpoint schedule dense
        live (clearArenas (sizing.bucketCount / 4) arenas))
        (Taken (sizing.params part) dense live) := by
  obtain ⟨earlier, holds⟩ := slean_scatter_spec (sizing.shape part inside) inGraph schedule dense
    live _ (counts_cleared part arenas) quiet
  exact ⟨quiet_clear_arenas part 0 arenas earlier, holds⟩

/-- The edges taken from a part are its live edges. -/
theorem taken_iff (full : dense = true → ∀ edge, partOf sizing edge < sizing.parts →
      test edges edge = true) (part : Nat) (inside : part < sizing.parts) (edge : Nat) :
    Taken (sizing.params part) dense edges edge ↔
      partOf sizing edge = part ∧ test edges edge = true := by
  rw [Taken, in_part_iff part inside]
  refine and_congr_right fun here => ⟨?_, Or.inr⟩
  rintro (all | live)
  · exact full all edge (here ▸ inside)
  · exact live

/-- Scattering and marking one more part. -/
theorem mark_part_marked (inGraph : ∀ edge, endpoint edge < 2 ^ sizing.edgeBits)
    (full : dense = true → ∀ edge, partOf sizing edge < sizing.parts → test edges edge = true)
    (part : Nat) (inside : part < sizing.parts) (buffers : Buffers)
    (marked : Marked sizing endpoint dense edges part buffers) :
    Marked sizing endpoint dense edges (part + 1)
      (markPart sizing endpoint orders dense buffers part) := by
  have kept := marked.edges_kept
  subst kept
  have scattered := scatter_part dense inGraph part inside (orders.markScatter part) buffers.arenas
    buffers.edges
  have shape := sizing.shape part inside
  refine ⟨rfl, ?_, ?_, ?_⟩
  · simp only [markPart]
    split
    · exact marked.size
    · exact slean_mark_buckets_length shape _ buffers.nodes marked.size
  · intro quiet node
    obtain ⟨earlier, holds⟩ := scattered quiet
    have nodes := marked.nodes earlier node
    simp only [markPart]
    split
    · rename_i last
      rw [nodes, Nat.min_eq_left (by omega), Nat.min_eq_right (by omega), ← last,
        Nat.add_sub_cancel]
    · rename_i earlier_part
      rw [slean_mark_buckets_spec shape inGraph _ _ holds buffers.nodes marked.size, nodes,
        Nat.min_eq_left (by omega), Nat.min_eq_left (by omega)]
      simp only [taken_iff dense full part inside]
      constructor
      · rintro (⟨edge, live, before, here⟩ | ⟨edge, ⟨in_part, live⟩, here⟩)
        · exact ⟨edge, live, by omega, here⟩
        · exact ⟨edge, live, by omega, here⟩
      · rintro ⟨edge, live, before, here⟩
        rcases Nat.lt_or_eq_of_le (Nat.le_of_lt_succ before) with earlier_edge | in_part
        · exact Or.inl ⟨edge, live, earlier_edge, here⟩
        · exact Or.inr ⟨edge, ⟨in_part, live⟩, here⟩
  · intro quiet other same
    obtain rfl : part = other := Nat.succ.inj same
    exact (scattered quiet).2

/-- The mark phase marks all parts but the last, which stays in the arenas. -/
theorem mark_phase_marked (inGraph : ∀ edge, endpoint edge < 2 ^ sizing.edgeBits)
    (full : dense = true → ∀ edge, partOf sizing edge < sizing.parts → test edges edge = true)
    (buffers : Buffers) (start : buffers.edges = edges) :
    Marked sizing endpoint dense edges sizing.parts
      (runSleanMarkPhase sizing endpoint orders dense buffers) := by
  have run : ∀ count ≤ sizing.parts, Marked sizing endpoint dense edges count
      ((List.range count).foldl (markPart sizing endpoint orders dense)
        { buffers with
          nodes := List.replicate sizing.wordCount 0#32
          arenas := clearArenas (sizing.bucketCount / 4 + 1) buffers.arenas
          dead := clearWords (sizing.deadBucketCount + 1) buffers.dead }) := by
    intro count
    induction count with
    | zero =>
      intro _
      refine ⟨start, List.length_replicate .., ?_, ?_⟩
      · intro _ node
        simp [test_replicate_zero]
      · intro _ part same
        cases same
    | succ count ih =>
      intro inside
      rw [List.range_succ, List.foldl_append]
      exact mark_part_marked orders dense inGraph full count inside _ (ih (Nat.le_of_succ_le inside))
  exact run sizing.parts (Nat.le_refl _)

/-- Collecting and applying the deaths of a part, with the counts cleared first. -/
theorem collect_apply_part (inGraph : ∀ edge, endpoint edge < 2 ^ sizing.edgeBits) (part : Nat)
    (inside : part < sizing.parts) (schedule : Schedule) (arenas : Arenas)
    (quiet : Quiet (sizing.params 0) arenas) (live nodes : Bitmap)
    (holds : Holds (sizing.params part) endpoint arenas (Taken (sizing.params part) dense live))
    (size : live.length = sizing.wordCount) (dead : DeadScratch)
    (unmoved : (collectDead (sizing.params part) endpoint schedule arenas nodes
      (clearWords sizing.deadBucketCount dead)).read sizing.deadBucketCount = 0) :
    dead.read sizing.deadBucketCount = 0 ∧ ∀ edge,
      test (sleanApplyDeaths (sizing.params part) arenas (collectDead (sizing.params part) endpoint
        schedule arenas nodes (clearWords sizing.deadBucketCount dead)) live) edge = true ↔
          test live edge = true ∧
            (partOf sizing edge = part → test nodes (endpoint edge ^^^ 1) = true) := by
  have shape := sizing.shape part inside
  have cleared : ∀ list < sleanDeadBucketCount (sizing.params part),
      (clearWords sizing.deadBucketCount dead).read list = 0 := by
    intro list small
    rw [← sizing.dead_bucket_count_eq part inside] at small
    exact if_pos small
  rw [sizing.dead_bucket_count_eq part inside] at unmoved cleared ⊢
  obtain ⟨earlier, _⟩ := collect_dead_spec shape inGraph schedule arenas _ (fun _ taken => taken.1)
    holds nodes _ cleared unmoved
  refine ⟨(if_neg (Nat.lt_irrefl _)).symm.trans earlier, ?_⟩
  intro edge
  rw [collect_apply_spec shape inGraph schedule arenas quiet dense live nodes holds size _ cleared
    unmoved, in_part_iff part inside]

/-- An edge is kept exactly if its complementary node is marked, that is, if it has a
    live mate. -/
theorem marked_mate (nodes : Bitmap) (marks : ∀ node, test nodes node = true ↔
      ∃ edge, test edges edge = true ∧ endpoint edge = node) (edge : Nat) :
    test nodes (endpoint edge ^^^ 1) = true ↔ Mated endpoint edges edge :=
  marks (endpoint edge ^^^ 1)

/-- A part that is scattered again and trimmed without overflow keeps its marked edges. -/
theorem trim_part_silent (inGraph : ∀ edge, endpoint edge < 2 ^ sizing.edgeBits) (part : Nat)
    (inside : part < sizing.parts) (buffers : Buffers)
    (size : buffers.edges.length = sizing.wordCount)
    (silent : Silent sizing (trimPart sizing endpoint orders dense buffers part)) :
    Silent sizing buffers ∧ ∀ edge,
      test (trimPart sizing endpoint orders dense buffers part).edges edge = true ↔
        test buffers.edges edge = true ∧
          (partOf sizing edge = part → test buffers.nodes (endpoint edge ^^^ 1) = true) := by
  obtain ⟨quiet, unmoved⟩ := silent
  obtain ⟨earlier, holds⟩ := scatter_part dense inGraph part inside (orders.trimScatter part)
    buffers.arenas buffers.edges quiet
  have clean := (has_overflow_eq_false (sizing.params part) _).mpr quiet
  simp only [trimPart] at clean unmoved ⊢
  rw [sleanTrimBuckets, if_neg (Bool.eq_false_iff.mp clean)] at unmoved ⊢
  obtain ⟨dead_earlier, keeps⟩ := collect_apply_part dense inGraph part inside (orders.deaths part) _
    quiet buffers.edges buffers.nodes holds size buffers.dead unmoved
  exact ⟨⟨earlier, dead_earlier⟩, keeps⟩

/-- Trimming one more part. -/
theorem trim_part_trimmed (inGraph : ∀ edge, endpoint edge < 2 ^ sizing.edgeBits) (part : Nat)
    (inside : part < sizing.parts) (buffers : Buffers)
    (trimmed : Trimmed sizing endpoint edges part buffers) :
    Trimmed sizing endpoint edges (part + 1)
      (trimPart sizing endpoint orders dense buffers part) := by
  have silent_before := trim_part_silent orders dense inGraph part inside buffers trimmed.edge_size
  refine ⟨trimmed.backup, ?_, ?_, ?_⟩
  · exact slean_apply_deaths_length (sizing.shape part inside) _ _ buffers.edges trimmed.edge_size
  · intro silent
    exact trimmed.nodes (silent_before silent).1
  · intro silent edge
    obtain ⟨earlier, keeps⟩ := silent_before silent
    rw [keeps, trimmed.live earlier, marked_mate buffers.nodes (trimmed.nodes earlier)]
    constructor
    · rintro ⟨⟨live, before⟩, now⟩
      refine ⟨live, fun done => ?_⟩
      by_cases here : partOf sizing edge = part
      · exact now here
      · exact before (by omega)
    · rintro ⟨live, mated⟩
      exact ⟨⟨live, fun done => mated (by omega)⟩, fun here => mated (by omega)⟩

/-- The node bitmap after the marks of the resident last part. -/
def finalMarks (sizing : SleanSizing) (endpoint : Nat → Nat) (buffers : Buffers) : Bitmap :=
  let p := sizing.params (sizing.parts - 1)
  overWindows 0 (sleanBucketWords p) p.bucketCount
    (fun bucket seen => markSlots p endpoint (sleanSlots p buffers.arenas bucket) seen) buffers.nodes

/-- After the last part all nodes of live edges are marked. -/
theorem final_marks_spec (inGraph : ∀ edge, endpoint edge < 2 ^ sizing.edgeBits)
    (full : dense = true → ∀ edge, partOf sizing edge < sizing.parts → test edges edge = true)
    (size : edges.length = sizing.wordCount) (buffers : Buffers)
    (marked : Marked sizing endpoint dense edges sizing.parts buffers)
    (quiet : Quiet (sizing.params 0) buffers.arenas) (node : Nat) :
    test (finalMarks sizing endpoint buffers) node = true ↔
      ∃ edge, test edges edge = true ∧ endpoint edge = node := by
  have two := sizing.parts_two
  have inside : sizing.parts - 1 < sizing.parts := by omega
  have shape := sizing.shape (sizing.parts - 1) inside
  have holds := marked.resident quiet (sizing.parts - 1) (by omega)
  rw [finalMarks, mark_windows shape inGraph buffers.arenas _ holds _
    (fun bucket seen length => mark_slots_spec shape _ seen length) buffers.nodes marked.size,
    marked.nodes quiet, Nat.min_eq_right (by omega)]
  simp only [taken_iff dense full _ inside]
  constructor
  · rintro (⟨edge, live, _, here⟩ | ⟨edge, ⟨_, live⟩, here⟩)
    · exact ⟨edge, live, here⟩
    · exact ⟨edge, live, here⟩
  · rintro ⟨edge, live, here⟩
    have in_some := part_of_live size edge live
    rcases Nat.lt_or_ge (partOf sizing edge) (sizing.parts - 1) with before | last
    · exact Or.inl ⟨edge, live, before, here⟩
    · exact Or.inr ⟨edge, ⟨by omega, live⟩, here⟩

/-- Trimming the resident last part. -/
theorem trim_last_part_trimmed (inGraph : ∀ edge, endpoint edge < 2 ^ sizing.edgeBits)
    (full : dense = true → ∀ edge, partOf sizing edge < sizing.parts → test edges edge = true)
    (size : edges.length = sizing.wordCount) (buffers : Buffers)
    (marked : Marked sizing endpoint dense edges sizing.parts buffers) :
    Trimmed sizing endpoint edges 0
      (trimLastPart sizing endpoint orders { buffers with backup := buffers.edges }) := by
  have kept := marked.edges_kept
  subst kept
  have two := sizing.parts_two
  have inside : sizing.parts - 1 < sizing.parts := by omega
  have shape := sizing.shape (sizing.parts - 1) inside
  by_cases quiet : Quiet (sizing.params 0) buffers.arenas
  · have clean := (has_overflow_eq_false (sizing.params (sizing.parts - 1)) _).mpr quiet
    have holds := marked.resident quiet (sizing.parts - 1) (by omega)
    have marks := final_marks_spec dense inGraph full size buffers marked quiet
    have trims : trimLastPart sizing endpoint orders { buffers with backup := buffers.edges } =
        let dead := collectDead (sizing.params (sizing.parts - 1)) endpoint
          (orders.deaths (sizing.parts - 1)) buffers.arenas (finalMarks sizing endpoint buffers)
          (clearWords sizing.deadBucketCount buffers.dead)
        { buffers with
          backup := buffers.edges
          nodes := finalMarks sizing endpoint buffers
          dead := dead
          edges := sleanApplyDeaths (sizing.params (sizing.parts - 1)) buffers.arenas dead
            buffers.edges } := by
      simp only [trimLastPart, sleanMarkAndTrimFinalPart, clean, Bool.false_eq_true, if_false,
        finalMarks]
    rw [trims]
    refine ⟨rfl, ?_, fun _ => marks, ?_⟩
    · exact slean_apply_deaths_length shape _ _ buffers.edges size
    · rintro ⟨_, unmoved⟩ edge
      rw [(collect_apply_part dense inGraph _ inside _ _ quiet buffers.edges _ holds size buffers.dead
        unmoved).2, marked_mate _ marks]
      simp only [Nat.not_lt_zero, false_or]
  · have overflowed : sleanHasOverflow (sizing.params (sizing.parts - 1)) buffers.arenas = true := by
      rw [← Bool.not_eq_false, has_overflow_eq_false]
      exact quiet
    have skips : trimLastPart sizing endpoint orders { buffers with backup := buffers.edges } =
        { buffers with
          backup := buffers.edges
          dead := clearWords sizing.deadBucketCount buffers.dead } := by
      simp only [trimLastPart, sleanMarkAndTrimFinalPart, sleanApplyDeaths, overflowed, if_true,
        Bool.true_or]
    rw [skips]
    exact ⟨rfl, size, fun silent => absurd silent.1 quiet,
      fun silent => absurd silent.1 quiet⟩

/-- The trim phase trims all parts. -/
theorem trim_phase_trimmed (inGraph : ∀ edge, endpoint edge < 2 ^ sizing.edgeBits)
    (full : dense = true → ∀ edge, partOf sizing edge < sizing.parts → test edges edge = true)
    (size : edges.length = sizing.wordCount) (buffers : Buffers)
    (marked : Marked sizing endpoint dense edges sizing.parts buffers) :
    Trimmed sizing endpoint edges (sizing.parts - 1)
      (runSleanTrimPhase sizing endpoint orders dense buffers) := by
  have run : ∀ count ≤ sizing.parts - 1, Trimmed sizing endpoint edges count
      ((List.range count).foldl (trimPart sizing endpoint orders dense)
        (trimLastPart sizing endpoint orders { buffers with backup := buffers.edges })) := by
    intro count
    induction count with
    | zero =>
      intro _
      exact trim_last_part_trimmed orders dense inGraph full size buffers marked
    | succ count ih =>
      intro inside
      rw [List.range_succ, List.foldl_append]
      exact trim_part_trimmed orders dense inGraph count (by omega) _ (ih (Nat.le_of_succ_le inside))
  exact run (sizing.parts - 1) (Nat.le_refl _)

end

/-- The counters read back sum to zero exactly if none has overflowed. -/
theorem overflow_readback_eq_zero (buffers : Buffers) :
    overflowReadback sizing buffers = 0 ↔ Silent sizing buffers := by
  have sum : ∀ left right, saturatingAdd left right = 0 ↔ left = 0 ∧ right = 0 := by
    intro left right
    rw [saturatingAdd]
    omega
  rw [Silent, ← has_overflow_eq_false]
  simp only [overflowReadback, List.foldl_cons, List.foldl_nil, sum, true_and, sleanHasOverflow,
    Bool.or_eq_false_iff, bne_eq_false_iff_eq]
  rfl

/-- A slean round yields the bitmap of a direct round. Without overflow the trimmed parts are
    that bitmap, since exactly the edges with a live mate are kept; and the backup is always the
    bitmap before the round. The orders of the reservations and what the arenas hold before are
    arbitrary; the first round starts from all edges. Which settings lead to such a sizing is a
    matter of its layout. -/
theorem slean_round_eq_lean_round (sizing : SleanSizing) (endpoint : Nat → Nat → Nat)
    (orders : Orders) (round : Nat) (buffers : Buffers)
    (inGraph : ∀ edge side, endpoint edge side < 2 ^ sizing.edgeBits)
    (size : buffers.edges.length = sizing.wordCount)
    (full : round = 0 → ∀ edge < 2 ^ sizing.edgeBits, test buffers.edges edge = true) :
    let node := fun edge => endpoint edge (round &&& 1)
    let trimmed := runSleanTrimPhase sizing node orders (round = 0)
      (runSleanMarkPhase sizing node orders (round = 0) buffers)
    runSleanDenseRound sizing endpoint orders round buffers =
        leanRound node sizing.edgeBits sizing.wordCount buffers.edges ∧
      (overflowReadback sizing trimmed = 0 → ∀ edge, test trimmed.edges edge = true ↔
        test buffers.edges edge = true ∧ Mated node buffers.edges edge) ∧
      trimmed.backup = buffers.edges := by
  intro node trimmed
  obtain ⟨bucket_bits, part_bits, powers⟩ := sizing.powers
  have wide := powers.wide
  have fewer := powers.fewer
  have nodes : sizing.wordCount * 32 = 2 ^ sizing.edgeBits :=
    (sizing.shape 0 (Nat.lt_of_lt_of_le Nat.two_pos sizing.parts_two)).nodes
  have all : decide (round = 0) = true → ∀ edge, partOf sizing edge < sizing.parts →
      test buffers.edges edge = true := by
    intro first edge inside
    refine full (of_decide_eq_true first) edge ?_
    rw [partOf, Nat.div_lt_iff_lt_mul part_edges_positive, powers.part_count, powers.edges,
      ← pow_add, Nat.add_sub_cancel' (by omega)] at inside
    exact inside
  have marked := mark_phase_marked orders (round = 0) (fun edge => inGraph edge (round &&& 1)) all
    buffers rfl
  have done := trim_phase_trimmed orders (round = 0) (fun edge => inGraph edge (round &&& 1)) all
    size _ marked
  have exact_edges : overflowReadback sizing trimmed = 0 → ∀ edge,
      test trimmed.edges edge = true ↔
        test buffers.edges edge = true ∧ Mated node buffers.edges edge := by
    intro none_lost edge
    rw [done.live ((overflow_readback_eq_zero _).mp none_lost)]
    refine and_congr_right fun live => ⟨fun mated => mated ?_, fun mated _ => mated⟩
    have inside := part_of_live size edge live
    omega
  refine ⟨?_, exact_edges, done.backup⟩
  rw [runSleanDenseRound, finishBucketRound]
  split
  · rename_i none_lost
    refine ext_test _ _ (by decide) ?_ ?_
    · rw [lean_round_length, size]
      exact done.edge_size
    · intro edge
      rw [Bool.eq_iff_iff, test_lean_round (by omega) (fun edge => inGraph edge (round &&& 1))
        (Nat.le_of_eq nodes.symm)]
      exact exact_edges none_lost edge
  · exact congrArg _ done.backup

/-- Two parts of sixty-four edges, and four buckets of one word. -/
def smallSizing (capacity deadCapacity : Nat) : SleanSizing where
  edgeBits := 7
  parts := 2
  localBytes := 4
  bucketCount := 4
  capacity := capacity
  deadCapacity := deadCapacity
  edgeBits_le := by decide
  parts_power := ⟨1, rfl⟩
  parts_two := by decide
  parts_limit := by decide
  bucketCount_eq := rfl
  buckets_power := ⟨2, rfl⟩
  buckets_four := by decide
  words_positive := by decide
  words_limit := by decide
  parts_whole := rfl

/-- Orders that reverse the mark scatters. -/
def smallOrders : Orders where
  markScatter _ := ⟨List.reverse, List.reverse_perm⟩
  trimScatter _ := ⟨id, listed_perm⟩
  deaths _ := ⟨id, listed_perm⟩

/-- All edges of a small graph live. -/
def smallBuffers : Buffers := ⟨List.replicate 4 (BitVec.allOnes 32), [], [], ⟨fun _ => 0⟩, ⟨fun _ => 0⟩⟩

/-- Nodes of which those of the first part have no complements. -/
def smallNode (edge : Nat) : Nat := if edge < 64 then 2 * (edge % 32) else 64 + edge % 59

/-- The last part loses an edge before the dead lists of the first part overflow. -/
theorem slean_round_eq_lean_round_small :
    overflowReadback (smallSizing 40 3) (runSleanTrimPhase (smallSizing 40 3) smallNode smallOrders
        true (runSleanMarkPhase (smallSizing 40 3) smallNode smallOrders true smallBuffers)) = 58 ∧
      runSleanDenseRound (smallSizing 40 3) (fun edge _ => smallNode edge) smallOrders 0
          smallBuffers =
        leanRound smallNode 7 4 smallBuffers.edges := by
  have inGraph : ∀ edge : Nat, Nat → smallNode edge < 128 := by
    intro edge _
    rw [smallNode]
    split <;> omega
  exact ⟨by decide +kernel, (slean_round_eq_lean_round (smallSizing 40 3)
    (fun edge _ => smallNode edge) smallOrders 0 smallBuffers inGraph rfl
    (fun _ => by decide +kernel)).1⟩

end CuckatooMiner.Slean
