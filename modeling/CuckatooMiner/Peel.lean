import Mathlib
import CuckatooMiner.Solver
import CuckatooMiner.RadixOrder
import CuckatooMiner.Foundation.Elimination
import CuckatooMiner.Foundation.Segments

/-!
# Grouping the survivors

`peel_two_core` groups the survivors by their node on each side, finds for every
group the group at the complementary node, and runs a worklist of the groups
without a living mate. Groups are numbered through: those of side zero first, then
those of side one, on each side in the order of their nodes, so that a mate is at
most one place away.

The source keeps one array over both sides where this model keeps one a side. The numbers of
groups are natural numbers in these tables. The source stores them in 32 bits, and so does the
peeler, which is built on these tables in `PeelExact`.
-/

namespace CuckatooMiner.Peel

open SipHash Verify Solver RadixOrder

/-- The largest 32-bit number. -/
def u32Max : Nat := 4294967295

/-- The groups of one side: the group of each edge, the node of each group, and the
    edges of all groups with the offset of each group among them. -/
structure SideGroups where
  edgeGroup : List Nat
  keys : List Nat
  edges : List Nat
  offsets : List Nat
deriving DecidableEq, Repr

/-- Add the next run of edges at one node as a group. -/
def addRun (keys : List Nat) (first : Nat) (side : SideGroups) (run : List Nat) : SideGroups :=
  let group := first + side.keys.length
  { edgeGroup := run.foldl (fun groups edge => groups.set edge group) side.edgeGroup
    keys := side.keys ++ [keys.getD (run.headD 0) 0]
    edges := side.edges ++ run
    offsets := side.offsets ++ [(side.edges ++ run).length] }

/-- The radix order cut where the node changes. -/
def runsOf (keys : List Nat) : List (List Nat) :=
  (radixOrder keys).splitBy fun left right => keys.getD left 0 == keys.getD right 0

/-- Group the edges by their node on one side, numbering the groups from `first`. -/
def groupSide (keys : List Nat) (first : Nat) : SideGroups :=
  (runsOf keys).foldl (addRun keys first) ⟨List.replicate keys.length 0, [], [], [0]⟩

/-- The mate of a group within one side's range of groups: its neighbour in the
    order of nodes, if there is one and it is at the complementary node. -/
def mateOf (groupKeys : List Nat) (start finish group : Nat) : Option Nat :=
  let key := groupKeys.getD group 0
  let neighbor :=
    if key % 2 = 0 then (if group + 1 < finish then some (group + 1) else none)
    else if group = 0 then none
    else if start ≤ group - 1 then some (group - 1) else none
  neighbor.filter fun index => groupKeys.getD index 0 == key ^^^ 1

/-- The groups of both sides. -/
structure Groups where
  zero : SideGroups
  one : SideGroups
deriving DecidableEq, Repr

/-- Where the groups of side one start. -/
def Groups.middle (groups : Groups) : Nat := groups.zero.keys.length

/-- The number of groups. -/
def Groups.count (groups : Groups) : Nat := groups.zero.keys.length + groups.one.keys.length

/-- The mate of every group. -/
def Groups.mateGroups (groups : Groups) : List (Option Nat) :=
  let groupKeys := groups.zero.keys ++ groups.one.keys
  (List.range groups.middle).map (mateOf groupKeys 0 groups.middle) ++
    (List.range' groups.middle (groups.count - groups.middle)).map
      (mateOf groupKeys groups.middle groups.count)

/-- The differences of successive offsets. -/
def groupSizes (offsets : List Nat) : List Nat :=
  (offsets.zip offsets.tail).map fun range => range.2 - range.1

/-- The number of edges of every group. -/
def Groups.liveCount (groups : Groups) : List Nat :=
  groupSizes groups.zero.offsets ++ groupSizes groups.one.offsets

/-- The edges of a group, cut out of its side's edges. -/
def Groups.members (groups : Groups) (group : Nat) : List Nat :=
  let side := if groups.middle ≤ group then groups.one else groups.zero
  let localGroup := group - if groups.middle ≤ group then groups.middle else 0
  let start := side.offsets.getD localGroup 0
  let finish := side.offsets.getD (localGroup + 1) 0
  (side.edges.drop start).take (finish - start)

/-- The tables that the worklist reads. -/
def Groups.incidence (groups : Groups) : Elimination.Incidence :=
  let mateGroup := groups.mateGroups
  { groups := fun edge => [groups.zero.edgeGroup.getD edge 0, groups.one.edgeGroup.getD edge 0]
    members := groups.members
    mate := fun group => mateGroup.getD group none }

/-- The survivors' nodes on one side. -/
def sideKeys (request : GraphParams) (survivors : List Nat) (side : Nat) : List Nat :=
  survivors.map fun edge => endpoint request.keys request.edgeBits edge side

/-- Group the survivors on both sides. -/
def groupSurvivors (request : GraphParams) (survivors : List Nat) : Groups :=
  let zero := groupSide (sideKeys request survivors 0) 0
  ⟨zero, groupSide (sideKeys request survivors 1) zero.keys.length⟩

/-! ## The runs of one side -/

/-- The node of a run. -/
def runKey (keys : List Nat) (run : List Nat) : Nat := keys.getD (run.headD 0) 0

variable (keys : List Nat)

/-- The runs together are the radix order. -/
theorem runs_flatten : (runsOf keys).flatten = radixOrder keys :=
  List.flatten_splitBy _ _

/-- An edge is in some run exactly when it is an index of the keys. -/
theorem mem_runs_flatten (edge : Nat) : edge ∈ (runsOf keys).flatten ↔ edge < keys.length := by
  rw [runs_flatten, (radix_order_perm keys).mem_iff, List.mem_range]

/-- No edge is listed twice. -/
theorem runs_nodup : (runsOf keys).flatten.Nodup := by
  rw [runs_flatten]
  exact (radix_order_perm keys).nodup_iff.mpr List.nodup_range

/-- All edges of a run are at its node. -/
theorem run_key_eq (run : List Nat) (member : run ∈ runsOf keys) (edge : Nat)
    (inside : edge ∈ run) : keys.getD edge 0 = runKey keys run := by
  have chain := List.isChain_of_mem_splitBy member
  cases run with
  | nil => cases inside
  | cons first rest =>
    have equal : (first :: rest).IsChain fun left right => keys.getD left 0 = keys.getD right 0 :=
      chain.imp fun left right same => by simpa using same
    have pairwise := List.isChain_iff_pairwise.mp equal
    rcases List.mem_cons.mp inside with rfl | later
    · rfl
    · exact ((List.pairwise_cons.mp pairwise).1 edge later).symm

/-- The nodes of the runs ascend: the order is sorted, and a run ends only where
    the node changes. -/
theorem run_keys_ascending (small : ∀ key ∈ keys, key < 2 ^ 32) :
    ((runsOf keys).map (runKey keys)).Pairwise (· < ·) := by
  have sorted := radix_order_sorted keys small
  rw [← runs_flatten, List.pairwise_flatten] at sorted
  have changes := List.isChain_getLast_head_splitBy
    (fun left right => keys.getD left 0 == keys.getD right 0) (radixOrder keys)
  rw [← List.isChain_iff_pairwise, List.isChain_map, List.isChain_iff_getElem]
  intro i bound
  have step := List.isChain_iff_getElem.mp changes i bound
  obtain ⟨left_nonempty, right_nonempty, differs⟩ := step
  have left_member : (runsOf keys)[i] ∈ runsOf keys := List.getElem_mem _
  have right_member : (runsOf keys)[i + 1] ∈ runsOf keys := List.getElem_mem _
  have ordered := List.pairwise_iff_getElem.mp sorted.2 i (i + 1) (by omega) bound
    (Nat.lt_succ_self i) _ (List.getLast_mem left_nonempty) _ (List.head_mem right_nonempty)
  have left_key := run_key_eq keys _ left_member _ (List.getLast_mem left_nonempty)
  have right_key := run_key_eq keys _ right_member _ (List.head_mem right_nonempty)
  rw [← left_key, ← right_key]
  apply Nat.lt_of_le_of_ne ordered
  simpa using differs

/-! ## The tables of one side -/

/-- The tables after some runs: their nodes, their edges one run after the other,
    the offset of each, and the number of the run at each of their edges. -/
structure Grouped (first : Nat) (done : List (List Nat)) (side : SideGroups) : Prop where
  nodes : side.keys = done.map (runKey keys)
  edges : side.edges = done.flatten
  offsets : side.offsets = Segments.starts done
  length : side.edgeGroup.length = keys.length
  group : ∀ i, (inside : i < done.length) → ∀ edge ∈ done[i],
    side.edgeGroup.getD edge 0 = first + i

/-- Writing one number at all edges of a run. -/
theorem set_run (groups run : List Nat) (group edge : Nat)
    (inside : ∀ other ∈ run, other < groups.length) :
    (run.foldl (fun groups edge => groups.set edge group) groups).length = groups.length ∧
      (run.foldl (fun groups edge => groups.set edge group) groups).getD edge 0 =
        if edge ∈ run then group else groups.getD edge 0 := by
  induction run generalizing groups with
  | nil => simp
  | cons other rest ih =>
    have bound := inside other List.mem_cons_self
    obtain ⟨length, read⟩ := ih (groups.set other group) (fun later member => by
      simpa using inside later (List.mem_cons_of_mem _ member))
    refine ⟨by simpa using length, ?_⟩
    rw [List.foldl_cons, read, List.getD_eq_getElem?_getD, List.getElem?_set]
    by_cases same : other = edge
    · subst same
      simp [bound]
    · have different : edge ≠ other := fun equal => same equal.symm
      simp [same, different]

/-- Adding a run that shares no edge with the earlier ones. -/
theorem add_run_grouped (first : Nat) (done : List (List Nat)) (run : List Nat)
    (side : SideGroups) (inside : ∀ edge ∈ run, edge < keys.length)
    (apart : ∀ edge ∈ run, edge ∉ done.flatten) (here : Grouped keys first done side) :
    Grouped keys first (done ++ [run]) (addRun keys first side run) := by
  have written := fun edge => set_run side.edgeGroup run (first + side.keys.length) edge
    (by rw [here.length]; exact inside)
  have count : side.keys.length = done.length := by rw [here.nodes, List.length_map]
  refine ⟨?_, ?_, ?_, ?_, ?_⟩
  · simp [addRun, here.nodes, runKey]
  · simp [addRun, here.edges]
  · rw [addRun, here.offsets, here.edges, Segments.starts_append]
  · exact (written 0).1.trans here.length
  · intro i bound edge member
    rw [addRun]
    simp only
    rw [(written edge).2, count]
    rw [List.length_append, List.length_singleton] at bound
    rcases Nat.lt_succ_iff_lt_or_eq.mp bound with earlier | rfl
    · rw [List.getElem_append_left earlier] at member
      have old : edge ∉ run := fun new =>
        apart edge new (List.mem_flatten.mpr ⟨_, List.getElem_mem earlier, member⟩)
      rw [if_neg old]
      exact here.group i earlier edge member
    · simp only [List.getElem_append_right (Nat.le_refl _), Nat.sub_self,
        List.getElem_cons_zero] at member
      rw [if_pos member]

/-- Adding the rest of the runs completes the tables. -/
theorem add_runs_grouped (first : Nat) (rest done : List (List Nat)) (side : SideGroups)
    (inside : ∀ edge ∈ (done ++ rest).flatten, edge < keys.length)
    (unique : (done ++ rest).flatten.Nodup) (here : Grouped keys first done side) :
    Grouped keys first (done ++ rest) (rest.foldl (addRun keys first) side) := by
  induction rest generalizing done side with
  | nil => simpa using here
  | cons run rest ih =>
    have regroup : done ++ run :: rest = (done ++ [run]) ++ rest := by simp
    rw [regroup] at inside unique ⊢
    refine ih (done ++ [run]) _ inside unique (add_run_grouped keys first done run side ?_ ?_ here)
    · intro edge member
      exact inside edge (by simp [member])
    · intro edge member earlier
      rw [List.flatten_append, List.flatten_append] at unique
      have disjoint := List.disjoint_of_nodup_append (List.Nodup.of_append_left unique)
      exact disjoint earlier (by simpa using member)

/-- The tables of a side describe its runs. -/
theorem group_side_grouped (first : Nat) :
    Grouped keys first (runsOf keys) (groupSide keys first) := by
  have start : Grouped keys first [] ⟨List.replicate keys.length 0, [], [], [0]⟩ :=
    ⟨rfl, rfl, rfl, by simp, fun i inside => absurd inside (Nat.not_lt_zero i)⟩
  have all := add_runs_grouped keys first (runsOf keys) [] _
    (by simpa using fun edge member => (mem_runs_flatten keys edge).mp member)
    (by simpa using runs_nodup keys) start
  simpa [groupSide] using all

variable {keys}

/-- Cutting a side's edges at its offsets gives its runs. -/
theorem Grouped.slice {first : Nat} {done : List (List Nat)} {side : SideGroups}
    (grouped : Grouped keys first done side) (i : Nat) (inside : i < done.length) :
    (side.edges.drop (side.offsets.getD i 0)).take
      (side.offsets.getD (i + 1) 0 - side.offsets.getD i 0) = done[i] := by
  rw [grouped.edges, grouped.offsets]
  exact Segments.slice done i inside

/-- The differences of a side's offsets are the sizes of its runs. -/
theorem Grouped.sizes {first : Nat} {done : List (List Nat)} {side : SideGroups}
    (grouped : Grouped keys first done side) :
    groupSizes side.offsets = done.map List.length := by
  rw [groupSizes, grouped.offsets]
  exact Segments.starts_differences done

/-- An edge belongs to a run exactly when it carries the run's number. -/
theorem Grouped.mem_run {first : Nat} {side : SideGroups}
    (grouped : Grouped keys first (runsOf keys) side) (i edge : Nat)
    (inside : i < (runsOf keys).length) :
    edge ∈ (runsOf keys)[i] ↔ edge < keys.length ∧ side.edgeGroup.getD edge 0 = first + i := by
  constructor
  · intro member
    exact ⟨(mem_runs_flatten keys edge).mp (List.mem_flatten.mpr ⟨_, List.getElem_mem inside, member⟩),
      grouped.group i inside edge member⟩
  · rintro ⟨bound, number⟩
    obtain ⟨run, run_member, member⟩ := List.mem_flatten.mp ((mem_runs_flatten keys edge).mpr bound)
    obtain ⟨j, j_inside, rfl⟩ := List.getElem_of_mem run_member
    have same := grouped.group j j_inside edge member
    obtain rfl : j = i := by omega
    exact member

/-- Every edge carries the number of a group that is at its node. -/
theorem Grouped.edge_group {first : Nat} {side : SideGroups}
    (grouped : Grouped keys first (runsOf keys) side) (edge : Nat) (bound : edge < keys.length) :
    ∃ i < side.keys.length, side.edgeGroup.getD edge 0 = first + i ∧
      side.keys.getD i 0 = keys.getD edge 0 := by
  obtain ⟨run, run_member, member⟩ := List.mem_flatten.mp ((mem_runs_flatten keys edge).mpr bound)
  obtain ⟨i, inside, rfl⟩ := List.getElem_of_mem run_member
  refine ⟨i, by simpa [grouped.nodes] using inside, grouped.group i inside edge member, ?_⟩
  rw [run_key_eq keys _ run_member edge member, grouped.nodes,
    List.getD_eq_getElem _ _ (by simpa using inside), List.getElem_map]

end CuckatooMiner.Peel
