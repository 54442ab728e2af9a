import Mathlib
import CuckatooMiner.EndpointKernels
import CuckatooMiner.MetalKernels
import CuckatooMiner.Foundation.Checks
import CuckatooMiner.Foundation.StridedSweep

/-!
# The tests of a Metal device

Before a Metal device solves anything it runs four tests: words that a probe changes, endpoints
of edges, a part of the edges that is sorted into buckets and marked, and a whole round over four
parts. The processor computes what each of them should leave, and a device that left anything
else is refused.

What a device makes of each dispatch is a parameter, and so is what it reports when memory or a
command fails. The device of the kernels as they are written takes its threads in any order and
finds anything in new buffers, except in counters and bitmaps, which the host clears.
-/

namespace CuckatooMiner.MetalSelfTest

open Checks Metal Outcome PackedBits Reservation Solver StridedSweep
open EndpointKernels (cuckatooEndpoint cuckatoo_endpoint_side_exact)
open LeanRound (Bitmap)
open SipHash (SipKeys endpoint endpoint_lt)

/-! ## Tests -/

/-- A word in a message. -/
def hex (word : Nat) : String := "0x" ++ String.ofList (Nat.toDigits 16 word)

/-- The keys of all tests. -/
def testKeys : SipKeys :=
  ⟨0xf2f41b02a8b78751, 0xe1eccf543aea04c0, 0x63234d62c7114f75, 0x1e44d1dd4fcff4c7⟩

/-- What a device makes of the dispatches, or why it makes nothing of them: of the words of the
    probe, of new words for endpoints, of a new arena with clear counts, and of the bitmaps. The
    marks and the trim are told the number of buckets. -/
structure Dispatches where
  probe : List (BitVec 32) → Except SolveError (List (BitVec 32))
  endpoints : SipKeys → EndpointParams → Except SolveError (List (BitVec 32))
  seed : SipKeys → EndpointParams → Except SolveError Device
  mark : SipKeys → EndpointParams → Nat → Device → Bitmap → Except SolveError Bitmap
  trim : SipKeys → EndpointParams → Nat → Device → Bitmap → Bitmap → Except SolveError Bitmap

section

variable (device : Dispatches)

/-- Test that the device runs kernels at all. -/
def verifyDispatch : Except SolveError Unit := do
  let words ← device.probe ((List.range 256).map (BitVec.ofNat 32))
  (List.range 256).forM fun index =>
    let actual := words.getD index 0#32
    let input := BitVec.ofNat 32 index
    let expected := input * 1664525#32 + 1013904223#32 + input
    if actual ≠ expected then
      .error (.gpu ("native probe mismatch at " ++ toString index ++ ": " ++ hex actual.toNat ++
        " != " ++ hex expected.toNat))
    else .ok ()

/-- Endpoints of successive edges. -/
def generateEndpoints (keys : SipKeys) (edgeBits side edgeBase count : Nat) :
    Except SolveError (List (BitVec 32)) :=
  if 2 ^ 64 ≤ count * 4 then .error (.gpu "native endpoint buffer size overflow")
  else if 2 ^ 32 ≤ count then .error (.gpu "native endpoint dispatch exceeds u32")
  else device.endpoints keys ⟨edgeBits, side, edgeBase, count, 0, 0⟩

/-- Test the endpoints of some edges on both sides. -/
def verifyEndpoints : Except SolveError Unit :=
  [0, 1].forM fun side => do
    let actual ← generateEndpoints device testKeys 12 side 997 4096
    (List.range 4096).forM fun offset =>
      let node := (actual.getD offset 0#32).toNat
      let edge := (997 + offset) % 2 ^ 32
      let expected := endpoint testKeys 12 edge side
      if node ≠ expected then
        .error (.gpu ("native endpoint mismatch side=" ++ toString side ++ " edge=" ++
          toString edge ++ ": " ++ hex node ++ " != " ++ hex expected))
      else .ok ()

/-- Compare a bitmap with the expected one. -/
def compareBitmaps (differs : String) (actual expected : Bitmap) : Except SolveError Unit :=
  if actual ≠ expected then
    let mismatch := ((List.zip actual expected).findIdx? fun words => words.1 != words.2).getD 0
    .error (.gpu (differs ++ toString mismatch ++ ": " ++ hex (actual.getD mismatch 0#32).toNat ++
      " != " ++ hex (expected.getD mismatch 0#32).toNat))
  else .ok ()

/-- What the test of the marks is about. -/
structure BucketMarkCheck where
  memory : Device
  params : EndpointParams
  keys : SipKeys
  edgeBits : Nat
  side : Nat
  edgeBase : Nat
  edgeCount : Nat
  buckets : Nat

/-- Test that marking a sorted part marks the nodes of its edges. -/
def verifyBucketMarks (check : BucketMarkCheck) : Except SolveError Unit := do
  let cleared := List.replicate (1 <<< check.edgeBits / 32) 0#32
  let actual ← device.mark check.keys check.params check.buckets check.memory cleared
  let expected := (List.range' check.edgeBase check.edgeCount).foldl
    (fun expected edge => put expected (endpoint check.keys check.edgeBits edge check.side)) cleared
  compareBitmaps "native bucket mark differs at word " actual expected

/-- Test a bucket against the edges that belong there, in ascending order. -/
def checkBucket (capacity : Nat) (memory : Device) (cpu : List (List Nat)) (bucket : Nat) :
    Except SolveError Unit :=
  let count := memory.read (.count .seed bucket)
  let expected := cpu.getD bucket []
  if count > capacity ∨ count ≠ expected.length then
    .error (.gpu ("native bucket " ++ toString bucket ++ " count mismatch: " ++ toString count ++
      " != " ++ toString expected.length))
  else
    let actual := (List.range count).map fun slot => memory.read (.slot .seed (bucket * capacity + slot))
    if actual.mergeSort ≠ expected then
      .error (.gpu ("native bucket " ++ toString bucket ++ " payload differs from CPU oracle"))
    else .ok ()

/-- Sort edges into lists by the buckets of their nodes. -/
def cpuBuckets (keys : SipKeys) (edgeBits side buckets : Nat) (edges : List Nat) : List (List Nat) :=
  edges.foldl (fun cpu edge => cpu.modify (endpoint keys edgeBits edge side >>> 18) (· ++ [edge]))
    (List.replicate buckets [])

/-- Test that a part is sorted into its buckets and marked. -/
def bucketSeedTest (keys : SipKeys) (edgeBits parts part side : Nat) : Except SolveError Unit := do
  let buckets := 1 <<< (edgeBits - 18)
  let partEdges := 1 <<< edgeBits / parts
  let capacity := partEdges / buckets * 105 / 100 / 4 * 4
  let edgeBase := part * partEdges
  let params := ⟨edgeBits, side, edgeBase, partEdges, capacity, capacity⟩
  let memory ← device.seed keys params
  let overflow := overflowCount memory
  if overflow ≠ 0 then
    .error (.searchLimit ("native bucket oracle overflowed by " ++ toString overflow ++ " edges"))
  else
    let cpu := cpuBuckets keys edgeBits side buckets (List.range' edgeBase partEdges)
    (List.range buckets).forM (checkBucket capacity memory cpu)
    verifyBucketMarks device ⟨memory, params, keys, edgeBits, side, edgeBase, partEdges, buckets⟩

/-- Test a part of a graph of twenty bits. -/
def verifyBucketSeed : Except SolveError Unit := bucketSeedTest device testKeys 20 4 2 1

/-- A part that was sorted into buckets. -/
structure NativeSeedPart where
  memory : Device
  params : EndpointParams

/-- The parameters of a part. -/
def partParams (edgeBits side part parts : Nat) : EndpointParams :=
  let localBits := min edgeBits 18
  let buckets := 1 <<< (edgeBits - localBits)
  let partEdges := 1 <<< edgeBits / parts
  let capacity := partEdges / buckets * 105 / 100 / 4 * 4
  let destinationCapacity := partEdges / buckets * 73 / 100 / 4 * 4
  ⟨edgeBits, side, part * partEdges, partEdges, capacity, destinationCapacity⟩

/-- Sort a part into buckets. -/
def seedPart (keys : SipKeys) (edgeBits side part parts : Nat) : Except SolveError NativeSeedPart := do
  let params := partParams edgeBits side part parts
  let memory ← device.seed keys params
  let overflow := overflowCount memory
  if overflow ≠ 0 then
    .error (.searchLimit ("native seed part " ++ toString part ++ " overflowed by " ++
      toString overflow ++ " edges"))
  else return ⟨memory, params⟩

/-- Sort and mark one more part. -/
def sortAndMark (keys : SipKeys) (edgeBits parts side : Nat) (sorted : List NativeSeedPart × Bitmap)
    (part : Nat) : Except SolveError (List NativeSeedPart × Bitmap) := do
  let (seeds, nodes) := sorted
  let seed ← seedPart device keys edgeBits side part parts
  let nodes ← device.mark keys seed.params (1 <<< (edgeBits - 18)) seed.memory nodes
  return (seeds ++ [seed], nodes)

/-- A round over all parts: each is sorted and marked, and then each is trimmed. -/
def partRound (keys : SipKeys) (edgeBits parts side : Nat) : Except SolveError Bitmap := do
  let cleared := List.replicate (1 <<< edgeBits / 32) 0#32
  let sorted ← (List.range parts).foldlM (sortAndMark device keys edgeBits parts side) ([], cleared)
  let (seeds, nodes) := sorted
  seeds.foldlM (fun survivors seed =>
    device.trim keys seed.params (1 <<< (edgeBits - 18)) seed.memory nodes survivors) cleared

/-- The survivors of a round, edge by edge. -/
def cpuSurvivors (keys : SipKeys) (edgeBits side : Nat) : Bitmap :=
  let cleared := List.replicate (1 <<< edgeBits / 32) 0#32
  let occupied := (List.range (1 <<< edgeBits)).foldl
    (fun occupied edge => put occupied (endpoint keys edgeBits edge side)) cleared
  (List.range (1 <<< edgeBits)).foldl (fun expected edge =>
    let mate := endpoint keys edgeBits edge side ^^^ 1
    if test occupied mate then put expected edge else expected) cleared

/-- Test a round over all parts. -/
def fullPartRoundTest (keys : SipKeys) (edgeBits parts side : Nat) : Except SolveError Unit := do
  let actual ← partRound device keys edgeBits parts side
  compareBitmaps "native four-part trim differs at word " actual (cpuSurvivors keys edgeBits side)

/-- Test a round over four parts of a graph of twenty bits. -/
def verifyFullPartRound : Except SolveError Unit := fullPartRoundTest device testKeys 20 4 0

/-- All tests of a new device. They are made in the order of the source, and the first that
    fails refuses the device. -/
def selfTests : Except SolveError Unit := do
  verifyDispatch device
  verifyEndpoints device
  verifyBucketSeed device
  verifyFullPartRound device

end

/-! ## What the tests accept -/

/-- Comparing bitmaps. -/
theorem compare_bitmaps_iff (differs : String) (actual expected : Bitmap) :
    compareBitmaps differs actual expected = .ok () ↔ actual = expected := by
  unfold compareBitmaps
  by_cases same : actual = expected <;> simp [same]

/-- Bitmaps of one length are equal if they have the same bits. -/
theorem bitmap_eq_iff (actual expected : Bitmap) :
    actual = expected ↔ actual.length = expected.length ∧
      ∀ index, test actual index = true ↔ test expected index = true := by
  constructor
  · rintro rfl
    exact ⟨rfl, fun _ => Iff.rfl⟩
  · rintro ⟨length, same⟩
    exact ext_test actual expected (by decide) length fun index => Bool.eq_iff_iff.mpr (same index)

section

variable {keys : SipKeys} {edgeBits side : Nat}

/-- The words of a bitmap have room for all nodes, and for all edges. -/
theorem node_inside (wide : 18 < edgeBits) (node : Nat) (inGraph : node < 2 ^ edgeBits) :
    node / 32 < (List.replicate (1 <<< edgeBits / 32) 0#32).length := by
  rw [List.length_replicate, Nat.one_shiftLeft]
  have bits : edgeBits - 5 + 5 = edgeBits := by omega
  have even : 2 ^ (edgeBits - 5) * 32 = 2 ^ edgeBits := by
    rw [← bits, Nat.add_sub_cancel]
    exact (pow_add 2 (edgeBits - 5) 5).symm
  omega

/-- Putting the nodes of edges into a clear bitmap. -/
theorem test_put_nodes (wide : 18 < edgeBits) (nodeOf : Nat → Nat) (edges : List Nat)
    (inGraph : ∀ edge ∈ edges, nodeOf edge < 2 ^ edgeBits) (node : Nat) :
    test (edges.foldl (fun bitmap edge => put bitmap (nodeOf edge))
        (List.replicate (1 <<< edgeBits / 32) 0#32)) node = true ↔
      ∃ edge ∈ edges, nodeOf edge = node := by
  rw [← List.foldl_map, test_put_all _ _ _ (by decide), test_replicate_zero, Bool.false_or,
    decide_eq_true_eq, List.mem_map]
  intro item member
  obtain ⟨edge, listed, rfl⟩ := List.mem_map.mp member
  exact node_inside wide _ (inGraph edge listed)

/-- A bitmap marks the nodes of a part. -/
def MarkedPart (keys : SipKeys) (p : EndpointParams) (nodes : Bitmap) : Prop :=
  nodes.length = wordCount p.edgeBits ∧
    ∀ node, test nodes node = true ↔ ∃ edge, InPart p edge ∧ endpoint keys p.edgeBits edge p.side = node

/-- A bitmap has the edges of a round whose mate is a node of some edge. -/
def TrimmedRound (keys : SipKeys) (edgeBits side : Nat) (survivors : Bitmap) : Prop :=
  survivors.length = wordCount edgeBits ∧
    ∀ edge, test survivors edge = true ↔ edge < 2 ^ edgeBits ∧
      ∃ other < 2 ^ edgeBits, endpoint keys edgeBits other side = endpoint keys edgeBits edge side ^^^ 1

/-- The edges of a part that belong in a bucket, in ascending order. -/
def bucketEdges (keys : SipKeys) (p : EndpointParams) (bucket : Nat) : List Nat :=
  (List.range' p.edgeBase p.edgeCount).filter fun edge =>
    endpoint keys p.edgeBits edge p.side >>> 18 = bucket

/-- An arena has every edge of a part in the bucket of its node, once. In which order a bucket
    has its edges is left to the threads. -/
def SortedPart (keys : SipKeys) (p : EndpointParams) (memory : Device) : Prop :=
  ∀ bucket < buckets p.edgeBits, memory.read (.count .seed bucket) ≤ p.capacity ∧
    (arenaSlots .seed p.capacity memory bucket).Perm (bucketEdges keys p bucket)

/-- Sorting edges into lists keeps their order in each list. -/
theorem cpu_buckets_getD (keys : SipKeys) (edgeBits side buckets bucket : Nat) (inside : bucket < buckets) (edges : List Nat) :
    (cpuBuckets keys edgeBits side buckets edges).getD bucket [] =
      edges.filter fun edge => endpoint keys edgeBits edge side >>> 18 = bucket := by
  have from_lists : ∀ cpu : List (List Nat), bucket < cpu.length →
      (edges.foldl (fun cpu edge =>
        cpu.modify (endpoint keys edgeBits edge side >>> 18) (· ++ [edge])) cpu).getD bucket [] =
      cpu.getD bucket [] ++ edges.filter fun edge => endpoint keys edgeBits edge side >>> 18 = bucket := by
    induction edges with
    | nil => intro cpu _; simp
    | cons edge rest ih =>
      intro cpu listed
      rw [List.foldl_cons, ih _ (by rwa [List.length_modify])]
      simp only [List.getD_eq_getElem?_getD, List.getElem?_modify]
      rw [List.getElem?_eq_getElem listed]
      by_cases here : endpoint keys edgeBits edge side >>> 18 = bucket
      · simp [here]
      · simp [here]
  rw [cpuBuckets, from_lists _ (by rwa [List.length_replicate]), List.getD_replicate _ inside,
    List.nil_append]

/-- A list sorts to an ascending one exactly if it has the same entries. -/
theorem merge_sort_eq_iff (actual expected : List Nat) (ascending : expected.Pairwise (· ≤ ·)) :
    actual.mergeSort = expected ↔ actual.Perm expected := by
  have sorted : actual.mergeSort.Pairwise (· ≤ ·) := by
    have ordered := @List.pairwise_mergeSort Nat (fun a b => decide (a ≤ b))
      (by simpa using fun a b c => @Nat.le_trans a b c) (by simpa using Nat.le_total) actual
    simpa using ordered
  constructor
  · rintro rfl
    exact (List.mergeSort_perm _ _).symm
  · intro permuted
    exact ((List.mergeSort_perm _ _).trans permuted).eq_of_pairwise' sorted ascending

/-- A bucket is accepted if it has the right edges, in any order. -/
theorem check_bucket_iff (capacity : Nat) (memory : Device) (cpu : List (List Nat)) (bucket : Nat)
    (ascending : (cpu.getD bucket []).Pairwise (· ≤ ·)) :
    checkBucket capacity memory cpu bucket = .ok () ↔
      memory.read (.count .seed bucket) ≤ capacity ∧
        (arenaSlots .seed capacity memory bucket).Perm (cpu.getD bucket []) := by
  simp only [checkBucket]
  by_cases many : memory.read (.count .seed bucket) > capacity
  · simp [many, Nat.not_le_of_gt many]
  have room := Nat.le_of_not_gt many
  have slots : arenaSlots .seed capacity memory bucket =
      (List.range (memory.read (.count .seed bucket))).map
        fun slot => memory.read (.slot .seed (bucket * capacity + slot)) := by
    rw [arenaSlots, Nat.min_eq_left room]
  have length : (arenaSlots .seed capacity memory bucket).length =
      memory.read (.count .seed bucket) := by simp [slots]
  rw [← slots]
  by_cases same_count : memory.read (.count .seed bucket) = (cpu.getD bucket []).length
  · rw [if_neg (not_or.mpr ⟨many, not_not.mpr same_count⟩), refuse_unless_ok_iff, not_not,
      merge_sort_eq_iff _ _ ascending]
    exact (and_iff_right room).symm
  · rw [if_pos (Or.inr same_count)]
    simp only [reduceCtorEq, false_iff, not_and]
    intro _ permuted
    exact same_count (length.symm.trans permuted.length_eq)

end

section

variable {device : Dispatches} {keys : SipKeys} {edgeBits parts part side : Nat}

/-- The probe is accepted if every word is changed as the kernel does it. -/
theorem verify_dispatch_iff : verifyDispatch device = .ok () ↔
    ∃ words, device.probe ((List.range 256).map (BitVec.ofNat 32)) = .ok words ∧
      ∀ index < 256, words.getD index 0#32 =
        BitVec.ofNat 32 index * 1664525#32 + 1013904223#32 + BitVec.ofNat 32 index := by
  rw [verifyDispatch, bind_ok_iff]
  simp only [each_ok_iff, refuse_unless_ok_iff, ne_eq, not_not, List.mem_range]

/-- The endpoints are accepted if each is that of its edge. -/
theorem verify_endpoints_iff : verifyEndpoints device = .ok () ↔
    ∀ side < 2, ∃ words, device.endpoints testKeys ⟨12, side, 997, 4096, 0, 0⟩ = .ok words ∧
      ∀ offset < 4096, (words.getD offset 0#32).toNat = endpoint testKeys 12 (997 + offset) side := by
  have generated : ∀ side, generateEndpoints device testKeys 12 side 997 4096 =
      device.endpoints testKeys ⟨12, side, 997, 4096, 0, 0⟩ := fun _ => rfl
  have no_wrap : ∀ offset < 4096, (997 + offset) % 2 ^ 32 = 997 + offset :=
    fun offset inside => Nat.mod_eq_of_lt (by omega)
  simp only [verifyEndpoints, each_ok_iff, bind_ok_iff, refuse_unless_ok_iff, ne_eq, not_not,
    List.mem_range, generated]
  constructor
  · intro all side small
    obtain ⟨words, ran, right⟩ := all side (by simp; omega)
    refine ⟨words, ran, ?_⟩
    intro offset inside
    rw [right offset inside, no_wrap offset inside]
  · intro all side listed
    obtain ⟨words, ran, right⟩ := all side (by simp at listed; omega)
    refine ⟨words, ran, ?_⟩
    intro offset inside
    rw [right offset inside, no_wrap offset inside]

/-- The marks are accepted if the nodes of the part are marked and no others. -/
theorem verify_bucket_marks_iff (device : Dispatches) (keys : SipKeys) (memory : Device) (p : EndpointParams) (wide : 18 < p.edgeBits)
    (most : p.edgeBits ≤ 32) (count : Nat) :
    verifyBucketMarks device ⟨memory, p, keys, p.edgeBits, p.side, p.edgeBase, p.edgeCount, count⟩ =
        .ok () ↔
      ∃ nodes, device.mark keys p count memory (List.replicate (wordCount p.edgeBits) 0#32) =
        .ok nodes ∧ MarkedPart keys p nodes := by
  rw [verifyBucketMarks, bind_ok_iff]
  simp only [compare_bitmaps_iff, bitmap_eq_iff]
  have nodes_marked := test_put_nodes wide
    (fun edge => endpoint keys p.edgeBits edge p.side) (List.range' p.edgeBase p.edgeCount)
    fun edge _ => endpoint_lt keys p.edgeBits edge p.side most
  have length : ((List.range' p.edgeBase p.edgeCount).foldl (fun expected edge =>
      put expected (endpoint keys p.edgeBits edge p.side))
      (List.replicate (1 <<< p.edgeBits / 32) 0#32)).length = wordCount p.edgeBits := by
    rw [← List.foldl_map, put_all_length, List.length_replicate, wordCount]
  simp only [length, nodes_marked, MarkedPart, InPart, List.mem_range'_1, wordCount]

/-- The parameters of the test of a part. -/
def testParams (edgeBits parts part side : Nat) : EndpointParams :=
  let partEdges := 1 <<< edgeBits / parts
  let capacity := partEdges / buckets edgeBits * 105 / 100 / 4 * 4
  ⟨edgeBits, side, part * partEdges, partEdges, capacity, capacity⟩

/-- A part is accepted if nothing overflowed, every bucket has its edges, and the marks of the
    device are right. -/
theorem bucket_seed_test_iff (device : Dispatches) (keys : SipKeys) (parts part side : Nat)
    (wide : 18 < edgeBits) (most : edgeBits ≤ 32) :
    bucketSeedTest device keys edgeBits parts part side = .ok () ↔
      ∃ memory, device.seed keys (testParams edgeBits parts part side) = .ok memory ∧
        overflowCount memory = 0 ∧ SortedPart keys (testParams edgeBits parts part side) memory ∧
        ∃ nodes, device.mark keys (testParams edgeBits parts part side) (buckets edgeBits) memory
          (List.replicate (wordCount edgeBits) 0#32) = .ok nodes ∧
          MarkedPart keys (testParams edgeBits parts part side) nodes := by
  have marks := fun memory => verify_bucket_marks_iff device keys memory
    (testParams edgeBits parts part side) wide most (buckets edgeBits)
  rw [bucketSeedTest, bind_ok_iff]
  refine exists_congr fun memory => and_congr_right fun _ => ?_
  by_cases quiet : overflowCount memory = 0
  · have sorted : ∀ bucket < buckets edgeBits, checkBucket (testParams edgeBits parts part side).capacity memory
        (cpuBuckets keys edgeBits side (buckets edgeBits) (List.range'
          (testParams edgeBits parts part side).edgeBase (testParams edgeBits parts part side).edgeCount))
        bucket = .ok () ↔
        memory.read (.count .seed bucket) ≤ (testParams edgeBits parts part side).capacity ∧
          (arenaSlots .seed (testParams edgeBits parts part side).capacity memory bucket).Perm
            (bucketEdges keys (testParams edgeBits parts part side) bucket) := by
      intro bucket inside
      have oracle := cpu_buckets_getD keys edgeBits side _ _ inside
        (List.range' (testParams edgeBits parts part side).edgeBase
          (testParams edgeBits parts part side).edgeCount)
      rw [check_bucket_iff, oracle]
      · exact Iff.rfl
      · rw [oracle]
        exact ((List.pairwise_lt_range' 1).filter _).imp Nat.le_of_lt
    simp only [quiet, true_and, ne_eq, not_true_eq_false, ↓reduceIte]
    rw [bind_ok_iff]
    constructor
    · rintro ⟨_, accepted, marked⟩
      rw [each_ok_iff] at accepted
      refine ⟨fun bucket inside => (sorted bucket inside).mp (accepted bucket ?_), (marks memory).mp marked⟩
      exact List.mem_range.mpr inside
    · rintro ⟨right, marked⟩
      refine ⟨.unit, (each_ok_iff _ _).mpr fun bucket listed => ?_, (marks memory).mpr marked⟩
      have inside := List.mem_range.mp listed
      exact (sorted bucket inside).mpr (right bucket inside)
  · simp [quiet]

/-- The processor keeps the edges whose mate is a node of some edge. -/
theorem cpu_survivors_spec (keys : SipKeys) (side : Nat) (wide : 18 < edgeBits) (most : edgeBits ≤ 32) :
    TrimmedRound keys edgeBits side (cpuSurvivors keys edgeBits side) := by
  have inGraph := fun edge => endpoint_lt keys edgeBits edge side most
  have all : ∀ edge, edge ∈ List.range (1 <<< edgeBits) ↔ edge < 2 ^ edgeBits := by
    intro edge
    rw [List.mem_range, Nat.one_shiftLeft]
  have occupied := test_put_nodes wide (fun edge => endpoint keys edgeBits edge side)
    (List.range (1 <<< edgeBits)) fun edge _ => inGraph edge
  simp only [cpuSurvivors, ← List.foldl_filter]
  constructor
  · rw [put_all_length, List.length_replicate, wordCount]
  · intro edge
    rw [test_put_all _ _ _ (by decide), test_replicate_zero, Bool.false_or, decide_eq_true_eq,
      List.mem_filter, occupied]
    · simp only [all]
    · intro item member
      exact node_inside wide item ((all item).mp (List.mem_filter.mp member).1)

/-- A round is accepted if it leaves the edges whose mate is a node of some edge, and no others. -/
theorem full_part_round_test_iff (device : Dispatches) (keys : SipKeys) (parts side : Nat)
    (wide : 18 < edgeBits) (most : edgeBits ≤ 32) :
    fullPartRoundTest device keys edgeBits parts side = .ok () ↔
      ∃ survivors, partRound device keys edgeBits parts side = .ok survivors ∧
        TrimmedRound keys edgeBits side survivors := by
  obtain ⟨length, members⟩ := cpu_survivors_spec keys side wide most
  rw [fullPartRoundTest, bind_ok_iff]
  simp only [compare_bitmaps_iff, bitmap_eq_iff, length, members, TrimmedRound]

/-- What a device made of the tests is right: the words of the probe, the endpoints, the buckets
    and marks of a part, and the survivors of a round. -/
structure Right (device : Dispatches) : Prop where
  probe : ∃ words, device.probe ((List.range 256).map (BitVec.ofNat 32)) = .ok words ∧
    ∀ index < 256, words.getD index 0#32 =
      BitVec.ofNat 32 index * 1664525#32 + 1013904223#32 + BitVec.ofNat 32 index
  endpoints : ∀ side < 2, ∃ words,
    device.endpoints testKeys ⟨12, side, 997, 4096, 0, 0⟩ = .ok words ∧
      ∀ offset < 4096, (words.getD offset 0#32).toNat = endpoint testKeys 12 (997 + offset) side
  part : ∃ memory, device.seed testKeys (testParams 20 4 2 1) = .ok memory ∧
    overflowCount memory = 0 ∧ SortedPart testKeys (testParams 20 4 2 1) memory ∧
    ∃ nodes, device.mark testKeys (testParams 20 4 2 1) (buckets 20) memory
      (List.replicate (wordCount 20) 0#32) = .ok nodes ∧ MarkedPart testKeys (testParams 20 4 2 1) nodes
  round : ∃ survivors, partRound device testKeys 20 4 0 = .ok survivors ∧
    TrimmedRound testKeys 20 0 survivors

/-- A device passes its tests exactly if everything that it made of them is right. A device may
    return anything for each dispatch and may fail at any of them. The tests look at some edges
    and parts of one graph, and nothing follows for others. -/
theorem self_tests_iff (device : Dispatches) : selfTests device = .ok () ↔ Right device := by
  have wide : 18 < 20 := by decide
  have most : 20 ≤ 32 := by decide
  have part := bucket_seed_test_iff device testKeys 4 2 1 wide most
  have round := full_part_round_test_iff device testKeys 4 0 wide most
  simp only [selfTests, bind_ok_iff]
  constructor
  · rintro ⟨_, probed, _, hashed, _, sorted, trimmed⟩
    exact
      { probe := verify_dispatch_iff.mp probed
        endpoints := verify_endpoints_iff.mp hashed
        part := part.mp sorted
        round := round.mp trimmed }
  · intro right
    exact ⟨.unit, verify_dispatch_iff.mpr right.probe, .unit, verify_endpoints_iff.mpr right.endpoints,
      .unit, part.mpr right.part, round.mpr right.round⟩

end

/-! ## The kernels as they are written -/

/-- Change a word of the probe. -/
def probeWord (gid : Nat) (word : BitVec 32) : BitVec 32 :=
  word * 1664525#32 + 1013904223#32 + BitVec.ofNat 32 gid

/-- The endpoint of an edge as the kernels compute it. -/
def kernelEndpoint (keys : SipKeys) (edgeBits edge side : Nat) : Nat :=
  (cuckatooEndpoint (BitVec.ofNat 32 edge) (.ofKeys keys edgeBits (BitVec.ofNat 32 side))).toNat

/-- Sort all edges of a part. -/
def bucketSeed (p : EndpointParams) (endpoint : Nat → Nat → Nat) (schedule : Schedule)
    (region : Region) (memory : Device) : Device :=
  (schedule.order (List.range p.edgeCount)).foldl (fun memory gid =>
    let edge := p.edgeBase + gid
    let node := endpoint edge p.side
    reserveSlot region p.capacity memory (node >>> bucketShift p) edge) memory

/-- What a device is free to choose: the orders of its threads and what new buffers hold. -/
structure Freedom where
  probeOrder : Schedule
  endpointOrder : EndpointParams → Schedule
  endpointWords : (p : EndpointParams) → Vector (BitVec 32) p.edgeCount
  seedOrder : EndpointParams → Schedule
  arena : EndpointParams → Device

/-- A new arena whose counts and overflow counter the host has cleared. -/
def clearedArena (freedom : Freedom) (p : EndpointParams) : Device :=
  clearCounts .seed (buckets p.edgeBits) (resetOverflow (freedom.arena p))

/-- A device that runs the kernels. -/
def running (freedom : Freedom) : Dispatches where
  probe words := .ok (sweep probeWord (freedom.probeOrder.order (List.range words.length)) words)
  endpoints keys p := .ok (sweep
    (fun gid _ => cuckatooEndpoint (BitVec.ofNat 32 (p.edgeBase + gid))
      (.ofKeys keys p.edgeBits (BitVec.ofNat 32 p.side)))
    ((freedom.endpointOrder p).order (List.range p.edgeCount)) (freedom.endpointWords p).toList)
  seed keys p := .ok (bucketSeed p (kernelEndpoint keys p.edgeBits) (freedom.seedOrder p) .seed
    (clearedArena freedom p))
  mark keys p buckets memory nodes :=
    .ok (bucketMark p (kernelEndpoint keys p.edgeBits) .seed buckets memory nodes)
  trim keys p buckets memory nodes survivors :=
    .ok (bucketTrimToBitmap p (kernelEndpoint keys p.edgeBits) .seed buckets memory nodes survivors)

section

variable {keys : SipKeys} {p : EndpointParams} {freedom : Freedom}

/-- The kernels compute the endpoint. -/
theorem kernel_endpoint_exact (keys : SipKeys) (edgeBits edge side : Nat) (most : edgeBits ≤ 32)
    (inRange : edge < 2 ^ 32) (isSide : side < 2) :
    kernelEndpoint keys edgeBits edge side = endpoint keys edgeBits edge side := by
  have sides : BitVec.ofNat 32 side = 0#32 ∨ BitVec.ofNat 32 side = 1#32 := by
    interval_cases side <;> simp
  rw [kernelEndpoint, cuckatooEndpoint]
  refine (cuckatoo_endpoint_side_exact keys edgeBits _ _ _ most sides).trans ?_
  rw [BitVec.toNat_ofNat, BitVec.toNat_ofNat, Nat.mod_eq_of_lt inRange, Nat.mod_eq_of_lt (by omega)]

/-- The kernels compute nodes. -/
theorem kernel_endpoint_lt (keys : SipKeys) (edgeBits edge side : Nat) (most : edgeBits ≤ 32)
    (isSide : side < 2) : kernelEndpoint keys edgeBits edge side < 2 ^ edgeBits := by
  have wrapped : kernelEndpoint keys edgeBits edge side =
      kernelEndpoint keys edgeBits (edge % 2 ^ 32) side := by
    have same : BitVec.ofNat 32 (edge % 2 ^ 32) = BitVec.ofNat 32 edge := BitVec.eq_of_toNat_eq (by simp)
    rw [kernelEndpoint, kernelEndpoint, same]
  rw [wrapped, kernel_endpoint_exact keys edgeBits _ side most (Nat.mod_lt _ (by decide)) isSide]
  exact endpoint_lt keys edgeBits _ side most

/-- A part of a graph whose edges and nodes are words. -/
structure InGraph (p : EndpointParams) : Prop where
  wide : 18 < p.edgeBits
  most : p.edgeBits ≤ 32
  isSide : p.side < 2
  fits : p.edgeBase + p.edgeCount ≤ 2 ^ p.edgeBits
  count : p.edgeCount < 2 ^ 32

/-- The edges of a part are words. -/
theorem InGraph.word (inGraph : InGraph p) (edge : Nat) (member : InPart p edge) : edge < 2 ^ 32 :=
  Nat.lt_of_lt_of_le member.2 (inGraph.fits.trans (Nat.pow_le_pow_right (by decide) inGraph.most))

/-- The kernels compute the endpoints of a part. -/
theorem InGraph.exact (inGraph : InGraph p) (edge : Nat) (member : InPart p edge) :
    kernelEndpoint keys p.edgeBits edge p.side = endpoint keys p.edgeBits edge p.side :=
  kernel_endpoint_exact keys _ edge _ inGraph.most (inGraph.word edge member) inGraph.isSide

/-- What the sorting of a part reserves slots for, in the order of its threads. -/
def partItems (keys : SipKeys) (p : EndpointParams) (schedule : Schedule) : List (Nat × Nat) :=
  seedItems p (kernelEndpoint keys p.edgeBits) (fun edge _ => edge)
    ((schedule.order (List.range p.edgeCount)).map (p.edgeBase + ·))

/-- Sorting a part sorts all its edges. -/
theorem bucket_seed_fill (schedule : Schedule) (region : Region) (memory : Device) :
    bucketSeed p (kernelEndpoint keys p.edgeBits) schedule region memory =
      fill region p.capacity (partItems keys p schedule) memory := by
  rw [bucketSeed, fill, partItems, seedItems, List.map_map, List.foldl_map]
  exact Eq.refl _

/-- The edges of a part, in the order of the threads. -/
theorem part_edges_perm (schedule : Schedule) :
    ((schedule.order (List.range p.edgeCount)).map (p.edgeBase + ·)).Perm
      (List.range' p.edgeBase p.edgeCount) := by
  have listed := (schedule.perm (List.range p.edgeCount)).map (p.edgeBase + ·)
  rwa [List.range'_eq_map_range] at *

/-- A bucket is asked for by its edges. -/
theorem part_items_in (keys : SipKeys) (inGraph : InGraph p) (schedule : Schedule) (bucket : Nat) :
    (valuesIn bucket (partItems keys p schedule)).Perm (bucketEdges keys p bucket) := by
  have asked : valuesIn bucket (partItems keys p schedule) =
      ((schedule.order (List.range p.edgeCount)).map (p.edgeBase + ·)).filter
        fun edge => kernelEndpoint keys p.edgeBits edge p.side >>> bucketShift p = bucket := by
    rw [valuesIn, partItems, seedItems, List.filter_map, List.map_map]
    exact List.map_id _
  rw [asked, bucket_shift inGraph.wide, bucketEdges]
  have same : (List.range' p.edgeBase p.edgeCount).filter
        (fun edge => kernelEndpoint keys p.edgeBits edge p.side >>> 18 = bucket) =
      (List.range' p.edgeBase p.edgeCount).filter
        fun edge => endpoint keys p.edgeBits edge p.side >>> 18 = bucket := by
    refine List.filter_congr fun edge member => ?_
    rw [inGraph.exact edge (List.mem_range'_1.mp member)]
  rw [← same]
  exact (part_edges_perm schedule).filter _

/-- Every bucket of a part has room for its edges. -/
def PartFits (keys : SipKeys) (p : EndpointParams) : Prop :=
  ∀ bucket < buckets p.edgeBits, (bucketEdges keys p bucket).length ≤ p.capacity

/-- Everything that the host clears is clear. -/
theorem cleared_arena_spec (freedom : Freedom) (p : EndpointParams) :
    (clearedArena freedom p).read .overflow = 0 ∧
      ∀ bucket < buckets p.edgeBits, (clearedArena freedom p).read (.count .seed bucket) = 0 := by
  obtain ⟨kept, cleared, _⟩ := clear_counts_spec .seed (buckets p.edgeBits)
    (resetOverflow (freedom.arena p))
  exact ⟨kept.trans (Memory.read_write_self _ _ _), cleared⟩

/-- The memory after a part was sorted. -/
def sortedMemory (freedom : Freedom) (keys : SipKeys) (p : EndpointParams) : Device :=
  bucketSeed p (kernelEndpoint keys p.edgeBits) (freedom.seedOrder p) .seed
    (clearedArena freedom p)

/-- The buckets of a part are filled from clear counts, and all edges found a slot or are counted. -/
theorem sorted_filled (freedom : Freedom) (keys : SipKeys) (inGraph : InGraph p) :
    Filled (arenaLayout .seed (buckets p.edgeBits) p.capacity)
      (clearedArena freedom p) (sortedMemory freedom keys p)
      (partItems keys p (freedom.seedOrder p)) ∧
    (sortedMemory freedom keys p).read .overflow ≤ p.edgeCount := by
  have inside : ∀ item ∈ partItems keys p (freedom.seedOrder p), item.1 < buckets p.edgeBits :=
    seed_items_inside inGraph.wide (fun edge =>
      kernel_endpoint_lt keys p.edgeBits edge p.side inGraph.most inGraph.isSide) _ _
  obtain ⟨reset, cleared⟩ := cleared_arena_spec freedom p
  have length : (partItems keys p (freedom.seedOrder p)).length = p.edgeCount := by
    rw [partItems, seedItems, List.length_map, List.length_map,
      ((freedom.seedOrder p).perm _).length_eq, List.length_range]
  have conserved := fill_conserves .seed (buckets p.edgeBits) p.capacity
    (partItems keys p (freedom.seedOrder p)) inside (clearedArena freedom p)
  rw [sortedMemory, bucket_seed_fill]
  refine ⟨fill_filled .seed _ _ _ inside _ cleared, ?_⟩
  have empty : occupancy (arenaLayout .seed (buckets p.edgeBits) p.capacity) (clearedArena freedom p) =
      0 := occupancy_cleared cleared
  omega

/-- The overflow counter stays clear exactly if every bucket has room for its edges. -/
theorem quiet_iff_fits (freedom : Freedom) (keys : SipKeys) (inGraph : InGraph p) :
    overflowCount (sortedMemory freedom keys p) = 0 ↔ PartFits keys p := by
  obtain ⟨filled, few⟩ := sorted_filled freedom keys inGraph
  have word : overflowCount (sortedMemory freedom keys p) =
      (sortedMemory freedom keys p).read .overflow :=
    Nat.mod_eq_of_lt (Nat.lt_of_le_of_lt few inGraph.count)
  have before := (cleared_arena_spec freedom p).1
  rw [word]
  constructor
  · intro quiet bucket inside
    have room := filled.room bucket inside (quiet.trans before.symm)
    rwa [(part_items_in keys inGraph _ bucket).length_eq] at room
  · intro fits
    refine (filled.quiet (fun bucket inside => ?_) 0 (buckets_positive _)).trans before
    rw [(part_items_in keys inGraph _ bucket).length_eq]
    exact fits bucket inside

/-- A part whose buckets have room is sorted. -/
theorem sorted_part (freedom : Freedom) (inGraph : InGraph p) (fits : PartFits keys p) :
    SortedPart keys p (sortedMemory freedom keys p) := by
  obtain ⟨filled, _⟩ := sorted_filled freedom keys inGraph
  intro bucket inside
  have asked := part_items_in keys inGraph (freedom.seedOrder p) bucket
  have room : (valuesIn bucket (partItems keys p (freedom.seedOrder p))).length ≤ p.capacity := by
    rw [asked.length_eq]
    exact fits bucket inside
  constructor
  · exact (filled.count bucket inside).trans_le room
  · exact (List.Perm.of_eq (filled.stored_eq bucket inside room)).trans asked

/-- A sorted part holds its edges by the buckets of their nodes. -/
theorem SortedPart.holds {memory : Device} (inGraph : InGraph p) (sorted : SortedPart keys p memory) :
    Holds .seed (buckets p.edgeBits) p.capacity memory (InPart p)
      fun edge => kernelEndpoint keys p.edgeBits edge p.side := by
  intro bucket inside edge
  rw [(sorted bucket inside).2.mem_iff, bucketEdges, List.mem_filter, List.mem_range'_1,
    decide_eq_true_eq]
  refine and_congr_right fun member => ?_
  change _ ↔ kernelEndpoint keys p.edgeBits edge p.side / 262144 = bucket
  rw [inGraph.exact edge member, Nat.shiftRight_eq_div_pow]

/-- Marking a sorted part adds the nodes of its edges. -/
theorem mark_sorted {memory : Device} (inGraph : InGraph p) (sorted : SortedPart keys p memory)
    (nodes : Bitmap) (size : nodes.length = wordCount p.edgeBits) :
    (bucketMark p (kernelEndpoint keys p.edgeBits) .seed (buckets p.edgeBits) memory nodes).length =
        wordCount p.edgeBits ∧
      ∀ node, test (bucketMark p (kernelEndpoint keys p.edgeBits) .seed (buckets p.edgeBits) memory
          nodes) node = true ↔
        test nodes node = true ∨
          ∃ edge, InPart p edge ∧ endpoint keys p.edgeBits edge p.side = node := by
  obtain ⟨length, marks⟩ := mark_buckets_spec inGraph.wide
    (fun edge => kernelEndpoint keys p.edgeBits edge p.side) .seed memory nodes size
  refine ⟨length, fun node => ?_⟩
  rw [bucketMark, marks _ (sorted.holds inGraph) fun edge _ =>
    kernel_endpoint_lt keys p.edgeBits edge p.side inGraph.most inGraph.isSide]
  refine or_congr_right (exists_congr fun edge => and_congr_right fun member => ?_)
  rw [inGraph.exact edge member]

end

/-- A search limit. -/
def Limit (error : SolveError) : Prop := ∃ reason, error = .searchLimit reason

section

variable {keys : SipKeys} {freedom : Freedom} {edgeBits parts side : Nat}

/-- The test of a part meets the limit of its buckets or passes. -/
theorem bucket_seed_test_decides (freedom : Freedom) (keys : SipKeys) (part : Nat)
    (inGraph : InGraph (testParams edgeBits parts part side)) :
    Decides (bucketSeedTest (running freedom) keys edgeBits parts part side) ()
      (PartFits keys (testParams edgeBits parts part side)) Limit := by
  have quiet := quiet_iff_fits freedom keys inGraph
  have wide : 18 < edgeBits := inGraph.wide
  constructor
  · intro fits
    have sorted := sorted_part freedom inGraph fits
    obtain ⟨length, marked⟩ := mark_sorted inGraph sorted
      (List.replicate (wordCount edgeBits) 0#32) List.length_replicate
    refine (bucket_seed_test_iff _ keys parts part side wide inGraph.most).mpr
      ⟨_, rfl, quiet.mpr fits, sorted, _, rfl, length, fun node => (marked node).trans ?_⟩
    rw [test_replicate_zero]
    simp
  · intro full
    exact ⟨_, if_pos (mt quiet.mp full), _, rfl⟩

/-- A sorted part and its parameters. -/
def sortedSeed (freedom : Freedom) (keys : SipKeys) (edgeBits parts side part : Nat) : NativeSeedPart :=
  ⟨sortedMemory freedom keys (partParams edgeBits side part parts), partParams edgeBits side part parts⟩

/-- Sorting a part meets the limit of its buckets or returns the part. -/
theorem seed_part_decides (part : Nat) (inGraph : InGraph (partParams edgeBits side part parts)) :
    Decides (seedPart (running freedom) keys edgeBits side part parts)
      (sortedSeed freedom keys edgeBits parts side part)
      (PartFits keys (partParams edgeBits side part parts)) Limit := by
  have quiet := quiet_iff_fits freedom keys inGraph
  constructor
  · intro fits
    exact if_neg (not_not.mpr (quiet.mpr fits))
  · intro full
    exact ⟨_, if_pos (mt quiet.mp full), _, rfl⟩

/-- The marks after the first parts. -/
def marksAfter (freedom : Freedom) (keys : SipKeys) (edgeBits parts side count : Nat) : Bitmap :=
  (List.range count).foldl (fun nodes part =>
    bucketMark (partParams edgeBits side part parts) (kernelEndpoint keys edgeBits) .seed
      (buckets edgeBits) (sortedMemory freedom keys (partParams edgeBits side part parts)) nodes)
    (List.replicate (wordCount edgeBits) 0#32)

/-- The survivors of the first parts. -/
def survivorsAfter (freedom : Freedom) (keys : SipKeys) (edgeBits parts side count : Nat) : Bitmap :=
  (List.range count).foldl (fun survivors part =>
    bucketTrimToBitmap (partParams edgeBits side part parts) (kernelEndpoint keys edgeBits) .seed
      (buckets edgeBits) (sortedMemory freedom keys (partParams edgeBits side part parts))
      (marksAfter freedom keys edgeBits parts side parts) survivors)
    (List.replicate (wordCount edgeBits) 0#32)

/-- Sorting and marking one more part. -/
theorem sort_and_mark_decides (part : Nat) (inGraph : InGraph (partParams edgeBits side part parts)) :
    Decides (sortAndMark (running freedom) keys edgeBits parts side
        ((List.range part).map (sortedSeed freedom keys edgeBits parts side),
          marksAfter freedom keys edgeBits parts side part) part)
      ((List.range (part + 1)).map (sortedSeed freedom keys edgeBits parts side),
        marksAfter freedom keys edgeBits parts side (part + 1))
      (PartFits keys (partParams edgeBits side part parts)) Limit := by
  have marked : marksAfter freedom keys edgeBits parts side (part + 1) =
      bucketMark (partParams edgeBits side part parts) (kernelEndpoint keys edgeBits) .seed
        (buckets edgeBits) (sortedMemory freedom keys (partParams edgeBits side part parts))
        (marksAfter freedom keys edgeBits parts side part) := by
    rw [marksAfter, List.range_succ, List.foldl_append]
    rfl
  have seeded : Decides (seedPart (running freedom) keys edgeBits side part parts) _ _ _ :=
    seed_part_decides part inGraph
  rw [marked, List.range_succ, List.map_append, sortAndMark]
  refine (decides_bind seeded fun _ => ?_).reworded (and_iff_left trivial)
  exact decides_ok _

/-- A round meets the limit of some bucket or returns the survivors. -/
theorem part_round_decides
    (inGraph : ∀ part < parts, InGraph (partParams edgeBits side part parts)) :
    Decides (partRound (running freedom) keys edgeBits parts side)
      (survivorsAfter freedom keys edgeBits parts side parts)
      (∀ part < parts, PartFits keys (partParams edgeBits side part parts)) Limit := by
  have sorted := decides_range (sortAndMark (running freedom) keys edgeBits parts side)
    (fun count => ((List.range count).map (sortedSeed freedom keys edgeBits parts side),
      marksAfter freedom keys edgeBits parts side count)) _ parts
    fun part inside _ => sort_and_mark_decides part (inGraph part inside)
  have trimmed : ((List.range parts).map (sortedSeed freedom keys edgeBits parts side)).foldlM
      (fun survivors seed => (running freedom).trim keys seed.params (1 <<< (edgeBits - 18)) seed.memory
        (marksAfter freedom keys edgeBits parts side parts) survivors)
      (List.replicate (1 <<< edgeBits / 32) 0#32) =
      .ok (survivorsAfter freedom keys edgeBits parts side parts) := by
    rw [List.foldlM_map]
    exact List.foldlM_pure ..
  refine (decides_bind sorted fun _ => ?_).reworded (and_iff_left trivial)
  exact (congrArg (Decides · _ _ _) trimmed).mpr (decides_ok _)

/-- Every part of a round is a part of the graph, and its buckets have room. -/
def RoundFits (keys : SipKeys) (edgeBits parts side : Nat) : Prop :=
  ∀ part < parts, PartFits keys (partParams edgeBits side part parts)

section

variable (freedom : Freedom) (inGraph : ∀ part < parts, InGraph (partParams edgeBits side part parts))
  (fits : RoundFits keys edgeBits parts side)

include inGraph fits

/-- The first parts mark the nodes of their edges. -/
theorem marks_after_spec (count : Nat) (some_parts : count ≤ parts) :
    (marksAfter freedom keys edgeBits parts side count).length = wordCount edgeBits ∧
      ∀ node, test (marksAfter freedom keys edgeBits parts side count) node = true ↔
        ∃ part < count, ∃ edge, InPart (partParams edgeBits side part parts) edge ∧
          endpoint keys edgeBits edge side = node := by
  induction count with
  | zero =>
    refine ⟨List.length_replicate, fun node => ?_⟩
    rw [marksAfter, List.range_zero, List.foldl_nil, test_replicate_zero]
    simp
  | succ count ih =>
    obtain ⟨size, marked⟩ := ih (Nat.le_of_succ_le some_parts)
    have here := inGraph count some_parts
    obtain ⟨length, more⟩ := mark_sorted here
      (sorted_part freedom here (fits count some_parts)) _ size
    have next : marksAfter freedom keys edgeBits parts side (count + 1) = _ :=
      (congrArg (List.foldl _ _) List.range_succ).trans List.foldl_append
    rw [next]
    refine ⟨length, fun node => (more node).trans ?_⟩
    rw [marked, Nat.exists_lt_succ_right]
    exact Iff.rfl

/-- The first parts keep their edges whose mate is marked. -/
theorem survivors_after_spec (count : Nat) (some_parts : count ≤ parts) :
    (survivorsAfter freedom keys edgeBits parts side count).length = wordCount edgeBits ∧
      ∀ edge, test (survivorsAfter freedom keys edgeBits parts side count) edge = true ↔
        ∃ part < count, InPart (partParams edgeBits side part parts) edge ∧
          test (marksAfter freedom keys edgeBits parts side parts)
            (endpoint keys edgeBits edge side ^^^ 1) = true := by
  induction count with
  | zero =>
    refine ⟨List.length_replicate, fun edge => ?_⟩
    rw [survivorsAfter, List.range_zero, List.foldl_nil, test_replicate_zero]
    simp
  | succ count ih =>
    obtain ⟨size, kept⟩ := ih (Nat.le_of_succ_le some_parts)
    have here := inGraph count some_parts
    have holds := (sorted_part freedom here (fits count some_parts)).holds here
    have more := bucket_trim_to_bitmap_spec here.wide
      (fun edge => kernel_endpoint_lt keys edgeBits edge side here.most here.isSide) .seed _ holds
      (marksAfter freedom keys edgeBits parts side parts)
      (survivorsAfter freedom keys edgeBits parts side count) (fun edge member => by
        have room := node_inside here.wide edge (member.2.trans_le here.fits)
        rw [List.length_replicate] at room
        exact room.trans_eq size.symm)
    have next : survivorsAfter freedom keys edgeBits parts side (count + 1) = _ :=
      (congrArg (List.foldl _ _) List.range_succ).trans List.foldl_append
    rw [next]
    constructor
    · exact (put_all_length _ _).trans size
    · intro edge
      refine (more edge).trans ?_
      rw [kept, Nat.exists_lt_succ_right]
      refine or_congr_right (and_congr_right fun member => ?_)
      have computed : kernelEndpoint keys edgeBits edge side = endpoint keys edgeBits edge side :=
        here.exact edge member
      rw [← computed]
      exact Iff.rfl

/-- Where every part is sorted, a round leaves the edges whose mate is a node of some edge. -/
theorem round_trimmed (cover : parts * (1 <<< edgeBits / parts) = 2 ^ edgeBits) :
    TrimmedRound keys edgeBits side (survivorsAfter freedom keys edgeBits parts side parts) := by
  obtain ⟨length, kept⟩ := survivors_after_spec freedom inGraph fits parts (Nat.le_refl _)
  obtain ⟨_, marked⟩ := marks_after_spec freedom inGraph fits parts (Nat.le_refl _)
  have covered : ∀ edge, (∃ part < parts, InPart (partParams edgeBits side part parts) edge) ↔
      edge < 2 ^ edgeBits := by
    intro edge
    rw [← cover]
    constructor
    · rintro ⟨part, inside, _, before⟩
      calc edge < part * (1 <<< edgeBits / parts) + 1 <<< edgeBits / parts := before
        _ = (part + 1) * (1 <<< edgeBits / parts) := (Nat.succ_mul _ _).symm
        _ ≤ parts * (1 <<< edgeBits / parts) := Nat.mul_le_mul_right _ inside
    · intro small
      have positive : 0 < 1 <<< edgeBits / parts := Nat.pos_of_lt_mul_left small
      exact ⟨edge / (1 <<< edgeBits / parts), (Nat.div_lt_iff_lt_mul positive).mpr small,
        Nat.div_mul_le_self _ _, Nat.lt_div_mul_add positive⟩
  refine ⟨length, fun edge => (kept edge).trans ?_⟩
  rw [marked, ← covered]
  constructor
  · rintro ⟨part, inside, member, other_part, other_inside, other, other_member, mate⟩
    exact ⟨⟨part, inside, member⟩, other, (covered other).mp ⟨other_part, other_inside, other_member⟩,
      mate⟩
  · rintro ⟨⟨part, inside, member⟩, other, small, mate⟩
    obtain ⟨other_part, other_inside, other_member⟩ := (covered other).mpr small
    exact ⟨part, inside, member, other_part, other_inside, other, other_member, mate⟩

end

/-- The test of a round meets the limit of some bucket or passes. -/
theorem full_part_round_test_decides (freedom : Freedom) (keys : SipKeys)
    (inGraph : ∀ part < parts, InGraph (partParams edgeBits side part parts))
    (wide : 18 < edgeBits) (most : edgeBits ≤ 32)
    (cover : parts * (1 <<< edgeBits / parts) = 2 ^ edgeBits) :
    Decides (fullPartRoundTest (running freedom) keys edgeBits parts side) ()
      (RoundFits keys edgeBits parts side) Limit := by
  have round : Decides (partRound (running freedom) keys edgeBits parts side) _ _ _ :=
    part_round_decides inGraph
  constructor
  · intro fits
    exact (full_part_round_test_iff _ keys parts side wide most).mpr
      ⟨_, round.holds fits, round_trimmed freedom inGraph fits cover⟩
  · intro full
    obtain ⟨error, failed, limit⟩ := round.refuses full
    refine ⟨error, ?_, limit⟩
    rw [fullPartRoundTest, failed]
    rfl

/-- The probe of a device that runs the kernel is accepted. -/
theorem probe_accepted (freedom : Freedom) : verifyDispatch (running freedom) = .ok () := by
  refine verify_dispatch_iff.mpr ⟨_, rfl, fun index inside => ?_⟩
  rw [sweep_all]
  · simp [List.getD_eq_getElem?_getD, inside, probeWord]
  · exact freedom.probeOrder.perm _

/-- The words of the endpoint kernel. -/
theorem endpoint_words (freedom : Freedom) (keys : SipKeys) (p : EndpointParams) (offset : Nat)
    (inside : offset < p.edgeCount) :
    ((sweep (fun gid _ => cuckatooEndpoint (BitVec.ofNat 32 (p.edgeBase + gid))
          (.ofKeys keys p.edgeBits (BitVec.ofNat 32 p.side)))
        ((freedom.endpointOrder p).order (List.range p.edgeCount))
        (freedom.endpointWords p).toList).getD offset 0#32).toNat =
      kernelEndpoint keys p.edgeBits (p.edgeBase + offset) p.side := by
  rw [sweep_all]
  · simp [List.getD_eq_getElem?_getD, inside, kernelEndpoint]
  · rw [Vector.length_toList]
    exact (freedom.endpointOrder p).perm _

/-- The endpoints of a device that runs the kernel are accepted. -/
theorem endpoints_accepted (freedom : Freedom) : verifyEndpoints (running freedom) = .ok () := by
  refine verify_endpoints_iff.mpr fun side small => ⟨_, rfl, fun offset inside => ?_⟩
  refine (endpoint_words freedom testKeys ⟨12, side, 997, 4096, 0, 0⟩ offset inside).trans ?_
  exact kernel_endpoint_exact testKeys 12 (997 + offset) side (by decide) (by omega) small

/-- Both sorted parts of the tests are parts of a graph of twenty bits. -/
theorem tested_in_graph : InGraph (testParams 20 4 2 1) ∧
    ∀ part < 4, InGraph (partParams 20 0 part 4) := by
  refine ⟨⟨by decide, by decide, by decide, by decide, by decide⟩, ?_⟩
  intro part inside
  interval_cases part <;> exact ⟨by decide, by decide, by decide, by decide, by decide⟩

/-- Every bucket of the tested parts has room for its edges. It is a fact about the keys of the
    tests, which is not evaluated here. -/
def TestsFit : Prop := PartFits testKeys (testParams 20 4 2 1) ∧ RoundFits testKeys 20 4 0

/-- A device that runs the kernels as they are written, with its threads in any order and anything
    in new buffers, is never found to be wrong: it passes exactly if every bucket of the tested
    parts has room for its edges, and otherwise a search limit is reported. -/
theorem running_device_passes (freedom : Freedom) :
    (selfTests (running freedom) = .ok () ↔ TestsFit) ∧
      ∀ error, selfTests (running freedom) = .error error → Limit error := by
  obtain ⟨part, round⟩ := tested_in_graph
  have seeded := bucket_seed_test_decides freedom testKeys 2 part
  have trimmed := full_part_round_test_decides freedom testKeys round (by decide) (by decide) (by decide)
  have tests : selfTests (running freedom) =
      (do verifyBucketSeed (running freedom); verifyFullPartRound (running freedom)) := by
    rw [selfTests, probe_accepted, endpoints_accepted]
    rfl
  rw [tests]
  exact (decides_bind seeded fun _ => trimmed).spec

end

end CuckatooMiner.MetalSelfTest
