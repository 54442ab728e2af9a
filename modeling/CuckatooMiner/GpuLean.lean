import Mathlib
import CuckatooMiner.LeanRound
import CuckatooMiner.TwoCore
import CuckatooMiner.Foundation.Reservation
import CuckatooMiner.Foundation.StridedSweep

/-!
# The direct path on the GPU

`init_edges` fills the edge bitmap, `run_lean_batch` encodes rounds of `clear_nodes`,
`mark_nodes` and `trim_edges`, and `read_bitmap_survivors` lists what is left. In each
kernel the threads share the words of a bitmap in strides. Their visits and their atomic
operations may be interleaved in any way; every dispatch has an order of its own.

Whatever the orders, a round is the direct round of the abstract bitmap, so the list is
that of the edges that survive the rounds. The batches count rounds in 32 bits, and a
batch of sixteen that starts within sixteen of the end of that range starts over.
-/

namespace CuckatooMiner.GpuLean

open PackedBits StridedSweep Pruning TwoCore
open LeanRound (Bitmap)
open Reservation (Schedule listed_perm)

/-- A number stored in thirty-two bits. -/
def asU32 (number : Nat) : Nat := number % 4294967296

/-- The numbers of edges and of bitmap words of a graph. -/
structure GraphSize where
  edgeCount : Nat
  wordCount : Nat
deriving DecidableEq, Repr

/-- The sizes of a graph. -/
def GraphSize.new (edgeBits : Nat) : GraphSize := ⟨2 ^ edgeBits, (2 ^ edgeBits + 31) / 32⟩

/-- What the kernels read besides the bitmaps. -/
structure Params where
  edgeCountLo : Nat
  wordCount : Nat
  nodeMask : Nat
deriving DecidableEq, Repr

/-- The parameters for a graph. -/
def Params.new (edgeBits : Nat) : Params :=
  let graph := GraphSize.new edgeBits
  ⟨asU32 graph.edgeCount, asU32 graph.wordCount,
    if edgeBits = 32 then 4294967295 else 2 ^ edgeBits - 1⟩

/-- The words that the threads of a dispatch visit, 256 threads a workgroup. -/
def wordVisits (params : Params) (groups : Nat) : List Nat :=
  visits 4294967296 (groups * 256) params.wordCount

/-- The word of a bitmap of all edges: the last one may be shorter. -/
def initWord (params : Params) (word : Nat) : BitVec 32 :=
  let remaining := params.edgeCountLo % 32
  if params.edgeCountLo ≠ 0 ∧ word + 1 = params.wordCount ∧ remaining ≠ 0 then
    (1#32 <<< remaining) - 1#32
  else BitVec.allOnes 32

/-- Fill the edge bitmap. -/
def initEdges (params : Params) (groups : Nat) (schedule : Schedule) (edges : Bitmap) : Bitmap :=
  sweep (fun word _ => initWord params word) (schedule.order (wordVisits params groups)) edges

/-- Clear the node bitmap. -/
def clearNodes (params : Params) (groups : Nat) (schedule : Schedule) (nodes : Bitmap) : Bitmap :=
  sweep (fun _ _ => 0#32) (schedule.order (wordVisits params groups)) nodes

/-- The live edges of the visited words. -/
def visitedEdges (params : Params) (groups : Nat) (edges : Bitmap) : List Nat :=
  (wordVisits params groups).flatMap fun word =>
    (drain 32 (edges.getD word 0#32)).map (word * 32 + ·)

/-- Mark the node of every live edge, each by one atomic operation. -/
def markNodes (endpoint : Nat → Nat) (params : Params) (groups : Nat) (schedule : Schedule)
    (edges nodes : Bitmap) : Bitmap :=
  (schedule.order (visitedEdges params groups edges)).foldl
    (fun nodes edge => put nodes (endpoint edge &&& params.nodeMask)) nodes

/-- Clear the bits of a word whose edges miss the mark of their complementary node. -/
def trimWord (endpoint : Nat → Nat) (params : Params) (nodes : Bitmap) (word : Nat)
    (aliveBits : BitVec 32) : BitVec 32 :=
  (drain 32 aliveBits).foldl (fun aliveBits place =>
    let mate := (endpoint (word * 32 + place) ^^^ 1) &&& params.nodeMask
    if test nodes mate then aliveBits else aliveBits &&& ~~~ bit 32 place) aliveBits

/-- Clear every live edge that misses the mark of its complementary node. -/
def trimEdges (endpoint : Nat → Nat) (params : Params) (groups : Nat) (schedule : Schedule)
    (nodes edges : Bitmap) : Bitmap :=
  sweep (trimWord endpoint params nodes) (schedule.order (wordVisits params groups)) edges

/-- The two bitmaps. -/
structure Buffers where
  edges : Bitmap
  nodes : Bitmap

/-- The orders of one round's dispatches. -/
structure RoundSchedule where
  clear : Schedule
  mark : Schedule
  trim : Schedule

/-- One round: clear, mark and trim. -/
def leanTrimRound (endpoint : Nat → Nat) (params : Params) (groups : Nat)
    (schedule : RoundSchedule) (buffers : Buffers) : Buffers :=
  let nodes := clearNodes params groups schedule.clear buffers.nodes
  let nodes := markNodes endpoint params groups schedule.mark buffers.edges nodes
  ⟨trimEdges endpoint params groups schedule.trim nodes buffers.edges, nodes⟩

section Host

variable (endpoints : Nat → Nat → Nat) (edgeBits groups : Nat) (schedules : Nat → RoundSchedule)

/-- The rounds of a range, each on the side of its lowest bit. -/
def encodeLeanRounds (first last : Nat) (buffers : Buffers) : Buffers :=
  (List.range' first (last - first)).foldl (fun buffers round =>
    leanTrimRound (endpoints (round % 2)) (Params.new edgeBits) groups (schedules round) buffers)
    buffers

/-- Rounds between two submissions. -/
def roundsPerSubmission : Nat := 16

/-- A batch of rounds, and the round after it. The end of a batch is computed in thirty-two bits
    as in a release build; a debug build stops where the sum wraps. -/
def runLeanBatch (firstRound rounds : Nat) (oneRoundAtATime : Bool) (buffers : Buffers) :
    Nat × Buffers :=
  let batchSize := if oneRoundAtATime then 1 else roundsPerSubmission
  let batchEnd := min (asU32 (firstRound + batchSize)) rounds
  (batchEnd, encodeLeanRounds endpoints edgeBits groups schedules firstRound batchEnd buffers)

/-- Batches until all rounds are done, if the given turns suffice. -/
def runDirect (rounds : Nat) (oneRoundAtATime : Bool) : Nat → Nat → Buffers → Option Buffers
  | 0, _, _ => none
  | turns + 1, round, buffers =>
      if round < rounds then
        let (round, buffers) :=
          runLeanBatch endpoints edgeBits groups schedules round rounds oneRoundAtATime buffers
        runDirect rounds oneRoundAtATime turns round buffers
      else some buffers

/-- List the set bits of a bitmap that are edges. -/
def readBitmapSurvivors (edgeCount : Nat) (edges : Bitmap) : List Nat :=
  (members 0 edges).filter (· < edgeCount)

/-- Initialise, trim for all rounds and read the survivors. Without a result the turns have run
    out. The cancel flag is left out here. -/
def trimDirect (rounds : Nat) (oneRoundAtATime : Bool) (initial : Schedule) (turns : Nat)
    (buffers : Buffers) : Option (List Nat) :=
  let edges := initEdges (Params.new edgeBits) groups initial buffers.edges
  (runDirect endpoints edgeBits groups schedules rounds oneRoundAtATime turns 0
    { buffers with edges := edges }).map fun buffers =>
      readBitmapSurvivors (GraphSize.new edgeBits).edgeCount buffers.edges

end Host

/-- The word indices that a round uses: those visited, and those of the marked and the
    inspected nodes. -/
def wordsUsed (endpoint : Nat → Nat) (params : Params) (groups : Nat) (edges : Bitmap) : List Nat :=
  wordVisits params groups ++ (visitedEdges params groups edges).flatMap fun edge =>
    [(endpoint edge &&& params.nodeMask) / 32, ((endpoint edge ^^^ 1) &&& params.nodeMask) / 32]

/-! ## What a round computes -/

/-- A graph of up to thirty-two edge bits in dispatches whose thread numbers and strides
    fit thirty-two bits. -/
structure Launch (edgeBits groups : Nat) : Prop where
  positive : 1 ≤ edgeBits
  inRange : edgeBits ≤ 32
  someGroups : 1 ≤ groups
  fits : (GraphSize.new edgeBits).wordCount + groups * 256 ≤ 4294967296

variable {endpoint : Nat → Nat} {endpoints : Nat → Nat → Nat} {edgeBits groups : Nat}

/-- The number of words is stored as it is. -/
theorem Launch.word_count (launch : Launch edgeBits groups) :
    (Params.new edgeBits).wordCount = (2 ^ edgeBits + 31) / 32 := by
  have fits := launch.fits
  have some_groups := launch.someGroups
  exact Nat.mod_eq_of_lt (by omega)

/-- The words hold all edges. -/
theorem Launch.covers (launch : Launch edgeBits groups) :
    2 ^ edgeBits ≤ (Params.new edgeBits).wordCount * 32 := by
  rw [launch.word_count]
  omega

/-- The node mask is that of the graph. -/
theorem Launch.node_mask (launch : Launch edgeBits groups) :
    (Params.new edgeBits).nodeMask = LeanRound.nodeMask edgeBits := by
  have inRange := launch.inRange
  unfold Params.new LeanRound.nodeMask
  simp only
  split
  · rename_i largest
    rw [largest]
    rfl
  · rfl

/-- The threads of a dispatch visit every word once. -/
theorem Launch.visits (launch : Launch edgeBits groups) :
    (wordVisits (Params.new edgeBits) groups).Perm
      (List.range (Params.new edgeBits).wordCount) := by
  have fits := launch.fits
  have some_groups := launch.someGroups
  apply visits_perm (by omega)
  rw [launch.word_count]
  exact fits

/-- So do they in the order of any schedule. -/
theorem Launch.ordered (launch : Launch edgeBits groups) (schedule : Schedule) (words : Bitmap)
    (length : words.length = (Params.new edgeBits).wordCount) :
    (schedule.order (wordVisits (Params.new edgeBits) groups)).Perm (List.range words.length) := by
  rw [length]
  exact (schedule.perm _).trans launch.visits

/-- Clearing clears all nodes. -/
theorem clear_nodes_eq (launch : Launch edgeBits groups) (schedule : Schedule) (nodes : Bitmap)
    (length : nodes.length = (Params.new edgeBits).wordCount) :
    clearNodes (Params.new edgeBits) groups schedule nodes =
      LeanRound.clearNodes (Params.new edgeBits).wordCount := by
  rw [clearNodes, sweep_all _ _ _ (launch.ordered schedule nodes length), LeanRound.clearNodes]
  apply List.ext_getElem
  · simp [length]
  · intro word _ _
    simp

/-- The visited edges are the live ones. -/
theorem mem_visited_edges (launch : Launch edgeBits groups) (edges : Bitmap)
    (length : edges.length = (Params.new edgeBits).wordCount) (edge : Nat) :
    edge ∈ visitedEdges (Params.new edgeBits) groups edges ↔ test edges edge = true := by
  simp only [visitedEdges, List.mem_flatMap, List.mem_map, launch.visits.mem_iff, List.mem_range,
    drain_width, ones, List.mem_filter]
  rw [test_eq_getLsbD _ _ (by decide)]
  constructor
  · rintro ⟨word, _, place, ⟨small, live⟩, rfl⟩
    have quotient : (word * 32 + place) / 32 = word := by omega
    have rest : (word * 32 + place) % 32 = place := by omega
    rw [quotient, rest]
    exact live
  · intro live
    have inside := inside_of_test edges edge (by rwa [test_eq_getLsbD _ _ (by decide)])
    exact ⟨edge / 32, by omega, edge % 32, ⟨Nat.mod_lt _ (by decide), live⟩, by omega⟩

/-- Marking edges one after the other puts their nodes. -/
theorem marks_as_puts (mask : Nat) (order : List Nat) (nodes : Bitmap) :
    order.foldl (fun nodes edge => put nodes (endpoint edge &&& mask)) nodes =
      (order.map fun edge => endpoint edge &&& mask).foldl put nodes :=
  List.foldl_map.symm

/-- Marking in any order marks the nodes of the live edges. -/
theorem mark_nodes_eq (launch : Launch edgeBits groups)
    (inGraph : ∀ edge, endpoint edge < 2 ^ edgeBits) (schedule : Schedule) (edges nodes : Bitmap)
    (length : edges.length = (Params.new edgeBits).wordCount)
    (nodes_length : nodes.length = (Params.new edgeBits).wordCount) :
    markNodes endpoint (Params.new edgeBits) groups schedule edges nodes =
      LeanRound.markNodes endpoint edgeBits edges nodes := by
  have inside : ∀ edges : List Nat, ∀ node ∈ edges.map (endpoint · &&& LeanRound.nodeMask edgeBits),
      node / 32 < nodes.length := by
    intro edges node member
    obtain ⟨edge, _, rfl⟩ := List.mem_map.mp member
    have small := inGraph edge
    have covers := launch.covers
    rw [LeanRound.masked_node _ small]
    omega
  rw [markNodes, LeanRound.markNodes, launch.node_mask, marks_as_puts, marks_as_puts]
  apply ext_test _ _ (by decide) (by rw [put_all_length, put_all_length])
  intro node
  rw [test_put_all _ _ _ (by decide) (inside _), test_put_all _ _ _ (by decide) (inside _)]
  congr 2
  simp only [List.mem_map, (schedule.perm _).mem_iff, mem_visited_edges launch edges length,
    LeanRound.mem_live]

/-- Clearing bits one after the other. -/
theorem clear_bits (drop : Nat → Bool) (places : List Nat) (word : BitVec 32) (place : Nat)
    (small : place < 32) (inside : ∀ other ∈ places, other < 32) :
    (places.foldl (fun word other => if drop other then word &&& ~~~ bit 32 other else word)
      word).getLsbD place =
      (word.getLsbD place && !(decide (place ∈ places) && drop place)) := by
  induction places generalizing word with
  | nil => simp
  | cons other rest ih =>
    rw [List.foldl_cons, ih _ fun later member => inside later (List.mem_cons_of_mem _ member)]
    have masked : (word &&& ~~~ bit 32 other).getLsbD place =
        (word.getLsbD place && !decide (place = other)) := by
      rw [BitVec.getLsbD_and, BitVec.getLsbD_not, bit_getLsbD _ _ small,
        Nat.mod_eq_of_lt (inside other List.mem_cons_self)]
      simp [small]
    by_cases dropped : drop other = true
    · rw [if_pos dropped, masked]
      by_cases here : place = other
      · subst here
        simp [dropped]
      · simp [here]
    · rw [if_neg dropped]
      by_cases here : place = other
      · subst here
        simp [dropped]
      · simp [here]

/-- Trimming in any order trims the words as one pass over the live edges does. -/
theorem trim_edges_eq (launch : Launch edgeBits groups)
    (schedule : Schedule) (nodes edges : Bitmap)
    (length : edges.length = (Params.new edgeBits).wordCount) :
    trimEdges endpoint (Params.new edgeBits) groups schedule nodes edges =
      LeanRound.trimEdges endpoint edgeBits nodes edges := by
  rw [trimEdges, sweep_all _ _ _ (launch.ordered schedule edges length)]
  apply ext_test _ _ (by decide)
  · rw [List.length_mapIdx, LeanRound.trimEdges, clear_all_length]
  intro edge
  rw [LeanRound.trimEdges, test_clear_all _ _ _ (by decide)]
  swap
  · intro item member
    exact inside_of_test _ _ ((LeanRound.mem_live edges item).mp (List.mem_of_mem_filter member))
  rw [test_eq_getLsbD _ _ (by decide), test_eq_getLsbD _ _ (by decide)]
  rcases Nat.lt_or_ge (edge / 32) edges.length with inside | outside
  · have word : (edges.mapIdx (trimWord endpoint (Params.new edgeBits) nodes)).getD (edge / 32) 0#32 =
        trimWord endpoint (Params.new edgeBits) nodes (edge / 32) (edges.getD (edge / 32) 0#32) := by
      rw [List.getD_eq_getElem _ _ (by simpa using inside), List.getElem_mapIdx,
        List.getD_eq_getElem _ _ inside]
    have whole : edge / 32 * 32 + edge % 32 = edge := Nat.div_add_mod' edge 32
    have small : edge % 32 < 32 := Nat.mod_lt _ (by decide)
    have drop := clear_bits
      (fun place => LeanRound.unmarked endpoint edgeBits nodes (edge / 32 * 32 + place))
      (ones (edges.getD (edge / 32) 0#32)) (edges.getD (edge / 32) 0#32) (edge % 32) small
      fun other member => by simpa using List.mem_of_mem_filter member
    have flipped : trimWord endpoint (Params.new edgeBits) nodes (edge / 32)
        (edges.getD (edge / 32) 0#32) =
        (ones (edges.getD (edge / 32) 0#32)).foldl (fun word other =>
          if LeanRound.unmarked endpoint edgeBits nodes (edge / 32 * 32 + other) then
            word &&& ~~~ bit 32 other else word) (edges.getD (edge / 32) 0#32) := by
      rw [trimWord, drain_width]
      simp only [launch.node_mask, LeanRound.unmarked, Bool.not_eq_true', ← Bool.not_eq_true,
        ite_not]
    rw [word, flipped, drop, whole]
    have live : test edges edge = (edges.getD (edge / 32) 0#32).getLsbD (edge % 32) :=
      test_eq_getLsbD _ _ (by decide)
    simp only [List.mem_filter, LeanRound.mem_live, live, ones, List.mem_range, small, true_and]
    cases (edges.getD (edge / 32) 0#32).getLsbD (edge % 32) <;> simp
  · rw [List.getD_eq_default _ _ (by simpa using outside), List.getD_eq_default _ _ outside]
    simp

/-- In any orders a round is the direct round. -/
theorem lean_trim_round_eq (launch : Launch edgeBits groups)
    (inGraph : ∀ edge, endpoint edge < 2 ^ edgeBits) (schedule : RoundSchedule) (buffers : Buffers)
    (edges_length : buffers.edges.length = (Params.new edgeBits).wordCount)
    (nodes_length : buffers.nodes.length = (Params.new edgeBits).wordCount) :
    (leanTrimRound endpoint (Params.new edgeBits) groups schedule buffers).edges =
        LeanRound.leanRound endpoint edgeBits (Params.new edgeBits).wordCount buffers.edges ∧
      (leanTrimRound endpoint (Params.new edgeBits) groups schedule buffers).nodes.length =
        (Params.new edgeBits).wordCount := by
  have cleared_length : (LeanRound.clearNodes (Params.new edgeBits).wordCount).length =
      (Params.new edgeBits).wordCount := List.length_replicate
  rw [leanTrimRound]
  simp only
  rw [clear_nodes_eq launch schedule.clear _ nodes_length,
    mark_nodes_eq launch inGraph schedule.mark _ _ edges_length cleared_length,
    trim_edges_eq launch schedule.trim _ _ edges_length]
  refine ⟨rfl, ?_⟩
  rw [LeanRound.markNodes, marks_as_puts, put_all_length, cleared_length]

/-! ## What all rounds compute -/

/-- Edges at complementary nodes of a side are mates there. -/
def Mates (endpoints : Nat → Nat → Nat) (side e f : Nat) : Prop :=
  endpoints side f = endpoints side e ^^^ 1

/-- The live edges of a bitmap. -/
def liveEdges (edges : Bitmap) : Set Nat := {e | test edges e = true}

/-- Bitmaps of the graph's size, in which the edges that survive some rounds are live. -/
structure Trimmed (endpoints : Nat → Nat → Nat) (edgeBits round : Nat) (buffers : Buffers) :
    Prop where
  edgesLength : buffers.edges.length = (Params.new edgeBits).wordCount
  nodesLength : buffers.nodes.length = (Params.new edgeBits).wordCount
  live : liveEdges buffers.edges = trimRounds (Mates endpoints) (graph edgeBits) round

/-- At first all edges are live, also when they do not fill a word and when their number
    is zero in thirty-two bits. -/
theorem init_edges_live (launch : Launch edgeBits groups) (schedule : Schedule) (edges : Bitmap)
    (length : edges.length = (Params.new edgeBits).wordCount) :
    (initEdges (Params.new edgeBits) groups schedule edges).length =
        (Params.new edgeBits).wordCount ∧
      liveEdges (initEdges (Params.new edgeBits) groups schedule edges) = graph edgeBits := by
  rw [initEdges, sweep_all _ _ _ (launch.ordered schedule edges length)]
  refine ⟨by rw [List.length_mapIdx, length], ?_⟩
  have word_count := launch.word_count
  have positive := launch.positive
  have inRange := launch.inRange
  apply Set.ext
  intro edge
  simp only [liveEdges, graph, Set.mem_ofPred_eq]
  rw [test_eq_getLsbD _ _ (by decide)]
  rcases Nat.lt_or_ge (edge / 32) edges.length with inside | outside
  swap
  · rw [List.getD_eq_default _ _ (by simpa using outside)]
    simp
    omega
  rw [List.getD_eq_getElem _ _ (by simpa using inside), List.getElem_mapIdx, initWord]
  rcases Nat.lt_or_ge edgeBits 5 with small | large
  · -- A graph smaller than a word fills the first places of it.
    have count : 2 ^ edgeBits < 32 := Nat.pow_lt_pow_right (by decide) small
    have some_edges : 0 < 2 ^ edgeBits := Nat.two_pow_pos edgeBits
    have stored : (Params.new edgeBits).edgeCountLo = 2 ^ edgeBits :=
      Nat.mod_eq_of_lt (show 2 ^ edgeBits < 4294967296 by omega)
    have one_word : (Params.new edgeBits).wordCount = 1 := by omega
    have first : edge / 32 = 0 := by omega
    have place : edge % 32 = edge := by omega
    rw [stored, one_word, if_pos (by omega), place, Nat.mod_eq_of_lt count]
    have mask : (1#32 <<< 2 ^ edgeBits) - 1#32 = BitVec.ofNat 32 (2 ^ 2 ^ edgeBits - 1) := by
      interval_cases edgeBits <;> rfl
    rw [mask, BitVec.getLsbD_ofNat, Nat.testBit_two_pow_sub_one]
    simp
    omega
  · -- Otherwise all words are full.
    have whole : 2 ^ edgeBits = 2 ^ (edgeBits - 5) * 32 := by
      rw [show 32 = 2 ^ 5 by rfl, ← Nat.pow_add, Nat.sub_add_cancel large]
    have remaining : (Params.new edgeBits).edgeCountLo % 32 = 0 := by
      change 2 ^ edgeBits % 4294967296 % 32 = 0
      omega
    rw [remaining, if_neg (fun condition => condition.2.2 rfl), BitVec.getLsbD_allOnes,
      decide_eq_true_eq]
    omega

/-- A direct round trims its side. -/
theorem live_after_round (positive : 1 ≤ edgeBits)
    (inGraph : ∀ edge, endpoint edge < 2 ^ edgeBits) (wordCount : Nat)
    (covers : 2 ^ edgeBits ≤ wordCount * 32) (side : Nat) (same : endpoints side = endpoint)
    (edges : Bitmap) :
    liveEdges (LeanRound.leanRound endpoint edgeBits wordCount edges) =
      trimSide (Mates endpoints) side (liveEdges edges) := by
  apply Set.ext
  intro edge
  subst same
  exact LeanRound.test_lean_round positive inGraph covers edge

/-- A round of the range trims once more. -/
theorem round_trimmed (launch : Launch edgeBits groups)
    (inGraph : ∀ side edge, endpoints side edge < 2 ^ edgeBits) (schedule : RoundSchedule)
    (round : Nat) (buffers : Buffers) (here : Trimmed endpoints edgeBits round buffers) :
    Trimmed endpoints edgeBits (round + 1)
      (leanTrimRound (endpoints (round % 2)) (Params.new edgeBits) groups schedule buffers) := by
  obtain ⟨edges_eq, nodes_length⟩ := lean_trim_round_eq launch (inGraph (round % 2)) schedule
    buffers here.edgesLength here.nodesLength
  refine ⟨?_, nodes_length, ?_⟩
  · rw [edges_eq, LeanRound.lean_round_length, here.edgesLength]
  · rw [edges_eq, live_after_round launch.positive (inGraph (round % 2)) _ launch.covers
      (round % 2) rfl, here.live]
    rfl

/-- Encoding a range of rounds performs all of them. -/
theorem encode_trimmed (launch : Launch edgeBits groups)
    (inGraph : ∀ side edge, endpoints side edge < 2 ^ edgeBits)
    (schedules : Nat → RoundSchedule) (first last : Nat) (ordered : first ≤ last)
    (buffers : Buffers) (here : Trimmed endpoints edgeBits first buffers) :
    Trimmed endpoints edgeBits last
      (encodeLeanRounds endpoints edgeBits groups schedules first last buffers) := by
  obtain ⟨count, rfl⟩ := Nat.exists_eq_add_of_le ordered
  rw [encodeLeanRounds, Nat.add_sub_cancel_left]
  clear ordered
  induction count generalizing first buffers with
  | zero => exact here
  | succ count ih =>
    rw [List.range'_succ, List.foldl_cons, Nat.add_comm count 1, ← Nat.add_assoc]
    exact ih (first + 1) _ (round_trimmed launch inGraph (schedules first) first buffers here)

/-! ## Batches -/

section Batches

variable (endpoints) (edgeBits) (groups) (schedules : Nat → RoundSchedule)

/-- A batch before the end of the range ends later than it starts, unless its last round
    is out of the range of 32-bit numbers. -/
theorem batch_end (firstRound rounds : Nat) (oneRoundAtATime : Bool) (buffers : Buffers)
    (before : firstRound < rounds) (small : rounds < 4294967296)
    (fits : oneRoundAtATime = true ∨ rounds ≤ 4294967280) :
    firstRound < (runLeanBatch endpoints edgeBits groups schedules firstRound rounds
        oneRoundAtATime buffers).1 ∧
      (runLeanBatch endpoints edgeBits groups schedules firstRound rounds oneRoundAtATime
        buffers).1 ≤ rounds := by
  rw [runLeanBatch]
  simp only
  refine ⟨?_, Nat.min_le_right _ _⟩
  rw [Nat.lt_min]
  refine ⟨?_, before⟩
  unfold asU32 roundsPerSubmission
  split
  · rw [Nat.mod_eq_of_lt (by omega)]
    omega
  · rename_i batched
    have bound := fits.resolve_left batched
    rw [Nat.mod_eq_of_lt (by omega)]
    omega

/-- As long as no batch leaves the range of 32-bit numbers, the batches end. -/
theorem run_direct_trimmed (launch : Launch edgeBits groups)
    (inGraph : ∀ side edge, endpoints side edge < 2 ^ edgeBits) (rounds : Nat)
    (oneRoundAtATime : Bool) (small : rounds < 4294967296)
    (fits : oneRoundAtATime = true ∨ rounds ≤ 4294967280) (turns round : Nat)
    (enough : rounds - round < turns) (ordered : round ≤ rounds) (buffers : Buffers)
    (here : Trimmed endpoints edgeBits round buffers) :
    ∃ last, runDirect endpoints edgeBits groups schedules rounds oneRoundAtATime turns round
        buffers = some last ∧ Trimmed endpoints edgeBits rounds last := by
  induction turns generalizing round buffers with
  | zero => omega
  | succ turns ih =>
    rw [runDirect]
    split
    · rename_i before
      obtain ⟨later, bound⟩ := batch_end endpoints edgeBits groups schedules round
        rounds oneRoundAtATime buffers before small fits
      exact ih _ (by omega) bound _
        (encode_trimmed launch inGraph schedules round _ (Nat.le_of_lt later) buffers here)
    · rename_i done
      obtain rfl : round = rounds := by omega
      exact ⟨buffers, rfl, here⟩

/-- More turns than the batches need change nothing. -/
theorem run_direct_more (rounds : Nat) (oneRoundAtATime : Bool) (turns more round : Nat)
    (buffers last : Buffers)
    (ended : runDirect endpoints edgeBits groups schedules rounds oneRoundAtATime turns round
      buffers = some last) :
    runDirect endpoints edgeBits groups schedules rounds oneRoundAtATime (turns + more) round
      buffers = some last := by
  induction turns generalizing round buffers with
  | zero => cases ended
  | succ turns ih =>
    rw [Nat.succ_add, runDirect]
    rw [runDirect] at ended
    split
    · rename_i before
      rw [if_pos before] at ended
      exact ih _ _ ended
    · rename_i done
      rwa [if_neg done] at ended

/-- Batches of sixteen that have to go beyond the range of 32-bit numbers never end: the
    last of them ends at round zero. -/
theorem run_direct_endless (rounds : Nat) (many : 4294967280 < rounds) (turns round : Nat)
    (aligned : round % 16 = 0) (before : round < rounds) (small : rounds < 4294967296)
    (buffers : Buffers) :
    runDirect endpoints edgeBits groups schedules rounds false turns round buffers = none := by
  induction turns generalizing round buffers with
  | zero => rfl
  | succ turns ih =>
    rw [runDirect, if_pos before]
    simp only [runLeanBatch]
    have next : min (asU32 (round + roundsPerSubmission)) rounds % 16 = 0 ∧
        min (asU32 (round + roundsPerSubmission)) rounds < rounds := by
      unfold asU32 roundsPerSubmission
      omega
    exact ih _ next.1 next.2 _

end Batches

/-- The list read from a bitmap of the graph's size is that of its live edges. -/
theorem read_trimmed (round : Nat) (buffers : Buffers)
    (here : Trimmed endpoints edgeBits round buffers) :
    (readBitmapSurvivors (2 ^ edgeBits) buffers.edges).Pairwise (· < ·) ∧
      ∀ edge, edge ∈ readBitmapSurvivors (2 ^ edgeBits) buffers.edges ↔
        edge ∈ trimRounds (Mates endpoints) (graph edgeBits) round := by
  refine ⟨(members_ascending buffers.edges 0 (by decide)).filter _, fun edge => ?_⟩
  rw [readBitmapSurvivors, List.mem_filter, LeanRound.mem_live, decide_eq_true_eq, ← here.live]
  constructor
  · exact And.left
  · intro live
    refine ⟨live, ?_⟩
    have inside : edge ∈ liveEdges buffers.edges := live
    rw [here.live] at inside
    have in_graph : edge ∈ graph edgeBits := trim_rounds_subset round inside
    exact in_graph

/-- Every index of a word that a round uses lies in the bitmaps. -/
theorem words_used_inside (launch : Launch edgeBits groups)
    (inGraph : ∀ edge, endpoint edge < 2 ^ edgeBits) (edges : Bitmap) :
    ∀ word ∈ wordsUsed endpoint (Params.new edgeBits) groups edges,
      word < (Params.new edgeBits).wordCount := by
  have covers := launch.covers
  have node_inside : ∀ node < 2 ^ edgeBits,
      (node &&& (Params.new edgeBits).nodeMask) / 32 < (Params.new edgeBits).wordCount := by
    intro node small
    rw [launch.node_mask, LeanRound.masked_node node small]
    omega
  intro word member
  rcases List.mem_append.mp member with visited | node
  · exact List.mem_range.mp (launch.visits.mem_iff.mp visited)
  · obtain ⟨edge, _, used⟩ := List.mem_flatMap.mp node
    rcases List.mem_cons.mp used with rfl | mate
    · exact node_inside _ (inGraph edge)
    · obtain rfl := List.mem_singleton.mp mate
      have positive := launch.positive
      exact node_inside _ (Nat.xor_lt_two_pow (inGraph edge) (Nat.one_lt_two_pow (by omega)))

/-- The direct path starts with all edges live. -/
theorem direct_start (launch : Launch edgeBits groups) (initial : Schedule) (buffers : Buffers)
    (edgesLength : buffers.edges.length = (Params.new edgeBits).wordCount)
    (nodesLength : buffers.nodes.length = (Params.new edgeBits).wordCount) :
    Trimmed endpoints edgeBits 0 { buffers with
      edges := initEdges (Params.new edgeBits) groups initial buffers.edges } := by
  obtain ⟨init_length, init_live⟩ := init_edges_live launch initial buffers.edges edgesLength
  exact ⟨init_length, nodesLength, init_live⟩

/-- Whatever the direct path returns is the ascending list of the edges that survive the
    rounds. -/
theorem direct_returned (rounds : Nat) (oneRoundAtATime : Bool) (initial : Schedule)
    (schedules : Nat → RoundSchedule) (turns : Nat) (buffers : Buffers) (survivors : List Nat)
    (launch : Launch edgeBits groups) (inGraph : ∀ side edge, endpoints side edge < 2 ^ edgeBits)
    (small : rounds < 4294967296)
    (edgesLength : buffers.edges.length = (Params.new edgeBits).wordCount)
    (nodesLength : buffers.nodes.length = (Params.new edgeBits).wordCount)
    (returned : trimDirect endpoints edgeBits groups schedules rounds oneRoundAtATime initial turns
      buffers = some survivors) :
    survivors.Pairwise (· < ·) ∧
      ∀ edge, edge ∈ survivors ↔ edge ∈ trimRounds (Mates endpoints) (graph edgeBits) rounds := by
  obtain ⟨last, ended, rfl⟩ := Option.map_eq_some_iff.mp returned
  have fits : oneRoundAtATime = true ∨ rounds ≤ 4294967280 := by
    by_contra leaves
    rw [not_or, Bool.not_eq_true, Nat.not_le] at leaves
    obtain ⟨rfl, many⟩ := leaves
    rw [run_direct_endless endpoints edgeBits groups schedules rounds many turns 0 rfl (by omega)
      small] at ended
    cases ended
  obtain ⟨whole, ended_whole, trimmed⟩ := run_direct_trimmed endpoints edgeBits groups schedules
    launch inGraph rounds oneRoundAtATime small fits (turns + (rounds + 1)) 0 (by omega)
    (Nat.zero_le _) _ (direct_start launch initial buffers edgesLength nodesLength)
  have same := run_direct_more endpoints edgeBits groups schedules rounds oneRoundAtATime turns
    (rounds + 1) 0 _ last ended
  obtain rfl : whole = last := Option.some.inj (ended_whole.symm.trans same)
  exact read_trimmed rounds whole trimmed

/-- The direct path returns the ascending list of the edges that survive the rounds. A run that
    does not return with any number of turns is not exact in this sense. -/
def DirectExact (endpoints : Nat → Nat → Nat) (edgeBits groups rounds : Nat)
    (oneRoundAtATime : Bool) (initial : Schedule) (schedules : Nat → RoundSchedule)
    (buffers : Buffers) : Prop :=
  ∃ turns survivors, trimDirect endpoints edgeBits groups schedules rounds oneRoundAtATime
      initial turns buffers = some survivors ∧
    survivors.Pairwise (· < ·) ∧
    ∀ edge, edge ∈ survivors ↔ edge ∈ trimRounds (Mates endpoints) (graph edgeBits) rounds

/-- In every graph of up to thirty-two edge bits, with any endpoints in the graph, any number of
    workgroups, any order of the visits and atomic operations in each dispatch and any contents
    of the bitmaps before, the direct path returns the ascending list of exactly the edges that
    survive the rounds, if and only if rounds are submitted one at a time or no batch of sixteen
    ends beyond the 32-bit numbers. No round uses a word outside the bitmaps. Atomic operations
    are indivisible; nothing else is assumed of the device. -/
theorem direct_exact_iff (endpoints : Nat → Nat → Nat) (edgeBits groups rounds : Nat)
    (oneRoundAtATime : Bool) (initial : Schedule) (schedules : Nat → RoundSchedule)
    (buffers : Buffers) (launch : Launch edgeBits groups)
    (inGraph : ∀ side edge, endpoints side edge < 2 ^ edgeBits)
    (small : rounds < 4294967296)
    (edgesLength : buffers.edges.length = (Params.new edgeBits).wordCount)
    (nodesLength : buffers.nodes.length = (Params.new edgeBits).wordCount) :
    (DirectExact endpoints edgeBits groups rounds oneRoundAtATime initial schedules buffers ↔
      oneRoundAtATime = true ∨ rounds ≤ 4294967280) ∧
    ∀ side edges, ∀ word ∈ wordsUsed (endpoints side) (Params.new edgeBits) groups edges,
      word < (Params.new edgeBits).wordCount := by
  refine ⟨?_, fun side edges => words_used_inside launch (inGraph side) edges⟩
  constructor
  · rintro ⟨turns, survivors, returned, _⟩
    by_contra leaves
    rw [not_or, Bool.not_eq_true, Nat.not_le] at leaves
    obtain ⟨rfl, many⟩ := leaves
    rw [trimDirect, run_direct_endless endpoints edgeBits groups schedules rounds many turns 0 rfl
      (by omega) small] at returned
    cases returned
  · intro fits
    have start : Trimmed endpoints edgeBits 0 _ :=
      direct_start launch initial buffers edgesLength nodesLength
    obtain ⟨last, ended, trimmed⟩ := run_direct_trimmed endpoints edgeBits groups schedules launch inGraph
      rounds oneRoundAtATime small fits (rounds + 1) 0 (by omega) (Nat.zero_le _) _ start
    obtain ⟨ascending, survivors⟩ := read_trimmed rounds last trimmed
    refine ⟨rounds + 1, _, ?_, ascending, survivors⟩
    rw [trimDirect, ended]
    rfl

/-- Dispatches in the order of their threads. -/
def inOrder : Schedule := ⟨id, listed_perm⟩

/-- Three rounds over a graph of two edges at the same nodes leave none of them. -/
theorem direct_exact_two_edges :
    DirectExact (fun _ _ => 0) 1 1 3 false inOrder (fun _ => ⟨inOrder, inOrder, inOrder⟩)
      ⟨[0#32], [0#32]⟩ :=
  (direct_exact_iff (fun _ _ => 0) 1 1 3 false inOrder (fun _ => ⟨inOrder, inOrder, inOrder⟩)
    ⟨[0#32], [0#32]⟩ ⟨by decide, by decide, by decide, by decide⟩ (fun _ _ => by decide) (by decide)
    rfl rfl).1.mpr (Or.inr (by decide))

/-- With as many rounds as can be asked for, the direct path does not return. -/
theorem direct_endless : ¬ DirectExact (fun _ _ => 0) 1 1 4294967295 false inOrder
    (fun _ => ⟨inOrder, inOrder, inOrder⟩) ⟨[0#32], [0#32]⟩ := by
  rintro ⟨turns, survivors, returned, _⟩
  rw [trimDirect, run_direct_endless (fun _ _ => 0) 1 1 _ 4294967295 (by decide) turns 0 rfl (by decide)
    (by decide)] at returned
  cases returned

end CuckatooMiner.GpuLean
