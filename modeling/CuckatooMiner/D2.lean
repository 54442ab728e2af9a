import Mathlib
import CuckatooMiner.RadixOrder
import CuckatooMiner.CpuSearch
import CuckatooMiner.PeelCore
import CuckatooMiner.Foundation.Segments

/-!
# The two-step cycle search

For cycles of length forty-two the GPU pipeline searches with arcs of two edges: an
arc leads from a survivor over a mate on side zero to a mate of that mate on side
one, so a cycle is twenty-one arcs. Only the survivors between arcs are marked as
being on the path; the middle edges are not, and the verifier has the last word.

The arcs are stored in one list with the offset of each survivor's arcs. The path
and the middle edges are arrays that keep stale entries beyond the current depth.
Other cycle lengths are left to the generic search.
-/

namespace CuckatooMiner.D2

open SipHash Verify Solver FirstFound RadixOrder CpuSearch Peel

/-- The limit on stored arcs. -/
def arcCap : Nat := 16 * 1024 * 1024

/-- The branch limit of the search. -/
def maxSearchBranches : Nat := 100000000

/-- Two edges at once: the middle edge and the edge it leads to. -/
structure Arc where
  dst : Nat
  mid : Nat
deriving DecidableEq, Repr

/-- The positions in a sorted order whose keys equal the wanted one. -/
def equalRange (order keys : List Nat) (wanted : Nat) : Nat × Nat :=
  let lower := (order.takeWhile fun index => keys.getD index 0 < wanted).length
  let upper := ((order.drop lower).takeWhile fun index => keys.getD index 0 = wanted).length + lower
  (lower, upper)

/-- The indices in such a range. -/
def rangeOf (order keys : List Nat) (wanted : Nat) : List Nat :=
  let (first, last) := equalRange order keys wanted
  (order.drop first).take (last - first)

/-- Append the arc to one destination, unless it returns to the source. -/
def pushArc (src mid : Nat) (arcs : List Arc) (dst : Nat) : Except SolveError (List Arc) :=
  if dst = src then .ok arcs
  else if arcs.length = arcCap then
    .error (.searchLimit ("D2 adjacency exceeded " ++ toString arcCap ++ " arcs"))
  else .ok (arcs ++ [⟨dst, mid⟩])

/-- Append the arcs over one middle edge, unless that is the source. -/
def pushMid (orderV keyV : List Nat) (src : Nat) (arcs : List Arc) (mid : Nat) :
    Except SolveError (List Arc) :=
  if mid = src then .ok arcs
  else (rangeOf orderV keyV (keyV.getD mid 0 ^^^ 1)).foldlM (pushArc src mid) arcs

/-- Append all arcs of one source. -/
def pushSource (orderU keyU orderV keyV : List Nat) (arcs : List Arc) (src : Nat) :
    Except SolveError (List Arc) :=
  (rangeOf orderU keyU (keyU.getD src 0 ^^^ 1)).foldlM (pushMid orderV keyV src) arcs

/-- Record a source's offset and append its arcs. -/
def addSource (orderU keyU orderV keyV : List Nat) (state : List Nat × List Arc) (src : Nat) :
    Except SolveError (List Nat × List Arc) :=
  match pushSource orderU keyU orderV keyV state.2 src with
  | .error error => .error error
  | .ok arcs => .ok (state.1 ++ [state.2.length], arcs)

/-- What a search reads. -/
structure DfsContext where
  request : GraphParams
  survivors : List Nat
  offsets : List Nat
  arcs : List Arc
  start : Nat

/-- What a search changes. -/
structure DfsState where
  path : List Nat
  mids : List Nat
  onPath : List Bool
  branches : Nat
deriving DecidableEq, Repr

/-- The arcs of a survivor. -/
def arcsOf (context : DfsContext) (current : Nat) : List Arc :=
  let first := context.offsets.getD current 0
  let last := context.offsets.getD (current + 1) 0
  (context.arcs.drop first).take (last - first)

/-- The nonces along the path and its middle edges. -/
def pathNonces (context : DfsContext) (state : DfsState) : List Nat :=
  (List.range 21).flatMap fun i =>
    [context.survivors.getD (state.path.getD i 0) 0, context.survivors.getD (state.mids.getD i 0) 0]

/-- Follow one arc from the survivor at a depth: back at the start it completes a
    proof if it is the last arc and the verifier agrees; otherwise descend unless
    the path is full or already visits the destination. -/
def followArc (context : DfsContext) (depth : Nat)
    (descend : Nat → DfsState → Except SolveError (Option Proof × DfsState))
    (arc : Arc) (state : DfsState) : Except SolveError (Option Proof × DfsState) :=
  let state := { state with branches := state.branches + 1 }
  if state.branches > maxSearchBranches then
    .error (.searchLimit ("more than " ++ toString maxSearchBranches ++ " branches in D2 search"))
  else
    let steps := depth + 1
    if arc.dst = context.start then
      if steps = 21 then
        let state := { state with mids := state.mids.set depth arc.mid }
        let proof := Proof.sorted (pathNonces context state)
        if verifyCycle context.request.keys context.request.edgeBits 42 proof = .ok () then
          .ok (some proof, state)
        else .ok (none, state)
      else .ok (none, state)
    else if steps = 21 ∨ state.onPath.getD arc.dst false = true then .ok (none, state)
    else
      match descend arc.dst { state with
          mids := state.mids.set depth arc.mid
          path := state.path.set steps arc.dst
          onPath := state.onPath.set arc.dst true } with
      | .error error => .error error
      | .ok (some proof, after) => .ok (some proof, after)
      | .ok (none, after) => .ok (none, { after with onPath := after.onPath.set arc.dst false })

/-- Search from the survivor at a depth; a path is never longer than twenty-one arcs,
    so no call needs more than the `21 - depth` levels it is given. -/
def dfs (context : DfsContext) :
    Nat → Nat → Nat → DfsState → Except SolveError (Option Proof × DfsState)
  | 0, _, _, state => .ok (none, state)
  | levels + 1, current, depth, state =>
      firstFound
        (followArc context depth fun dst state => dfs context levels dst (depth + 1) state)
        (arcsOf context current) state

/-- Search from one survivor, skipping it when it has no arcs. -/
def searchFrom (request : GraphParams) (survivors offsets : List Nat) (arcs : List Arc)
    (start : Nat) (state : DfsState) : Except SolveError (Option Proof × DfsState) :=
  if offsets.getD start 0 = offsets.getD (start + 1) 0 then .ok (none, state)
  else
    match dfs ⟨request, survivors, offsets, arcs, start⟩ 21 start 0
      { state with path := state.path.set 0 start, onPath := state.onPath.set start true } with
    | .error error => .error error
    | .ok (some proof, after) => .ok (some proof, after)
    | .ok (none, after) => .ok (none, { after with onPath := after.onPath.set start false })

/-- Find an exact cycle in the trimmed graph. The survivors may be any list. Other lengths than
    42 are searched by the generic search, which has no limit on arcs. -/
def findCycleD2 (request : GraphParams) (survivors : List Nat) :
    Except SolveError (Option Proof) :=
  if survivors.length < request.cycleLength then .ok none
  else if request.cycleLength ≠ 42 then findCycle request survivors
  else if u32Max < survivors.length then .error (.unsupported "D2 survivor index exceeds u32")
  else
    let keyU := sideKeys request survivors 0
    let keyV := sideKeys request survivors 1
    let orderU := radixOrder keyU
    let orderV := radixOrder keyV
    match (List.range survivors.length).foldlM (addSource orderU keyU orderV keyV) ([], []) with
    | .error error => .error error
    | .ok (offsets, arcs) =>
        let offsets := offsets ++ [arcs.length]
        match firstFound (searchFrom request survivors offsets arcs) (List.range survivors.length)
          ⟨List.replicate 21 0, List.replicate 21 0, List.replicate survivors.length false, 0⟩ with
        | .error error => .error error
        | .ok (found, _) => .ok found

/-! ## Soundness -/

/-- Following an arc returns accepted proofs, or what the descent returned. -/
theorem follow_arc_some (context : DfsContext) (depth : Nat)
    (descend : Nat → DfsState → Except SolveError (Option Proof × DfsState))
    (arc : Arc) (state last : DfsState) (proof : Proof)
    (found : followArc context depth descend arc state = .ok (some proof, last)) :
    verifyCycle context.request.keys context.request.edgeBits 42 proof = .ok () ∨
      ∃ before, descend arc.dst before = .ok (some proof, last) := by
  unfold followArc at found
  simp only at found
  split at found
  · cases found
  · split at found
    · split at found
      · split at found
        · rename_i accepted
          simp only [Except.ok.injEq, Prod.mk.injEq, Option.some.injEq] at found
          exact Or.inl (found.1 ▸ accepted)
        · cases found
      · cases found
    · split at found
      · cases found
      · split at found
        · cases found
        · rename_i descended
          cases found
          exact Or.inr ⟨_, descended⟩
        · cases found

/-- The search returns accepted proofs only. -/
theorem dfs_sound (context : DfsContext) (levels current depth : Nat) (state last : DfsState)
    (proof : Proof) (found : dfs context levels current depth state = .ok (some proof, last)) :
    verifyCycle context.request.keys context.request.edgeBits 42 proof = .ok () := by
  induction levels generalizing current depth state with
  | zero => cases found
  | succ levels ih =>
    obtain ⟨arc, _, before, followed⟩ := first_found_some _ _ _ _ _ found
    rcases follow_arc_some _ _ _ _ _ _ _ followed with accepted | ⟨entered, descended⟩
    · exact accepted
    · exact ih _ _ _ descended

/-- A two-step search returns accepted proofs only. -/
theorem find_cycle_d2_sound (request : GraphParams) (survivors : List Nat) (proof : Proof)
    (found : findCycleD2 request survivors = .ok (some proof)) :
    verifyCycle request.keys request.edgeBits request.cycleLength proof = .ok () := by
  unfold findCycleD2 at found
  split at found
  · cases found
  split at found
  · exact find_cycle_sound request survivors proof found
  rename_i length
  split at found
  · cases found
  simp only at found
  split at found
  · cases found
  split at found
  · cases found
  rename_i searched
  cases found
  obtain ⟨start, _, before, from_start⟩ := first_found_some _ _ _ _ _ searched
  unfold searchFrom at from_start
  split at from_start
  · cases from_start
  split at from_start
  · cases from_start
  · rename_i descended
    cases from_start
    rw [not_not.mp length]
    exact dfs_sound _ _ _ _ _ _ _ descended
  · cases from_start

/-! ## The arcs -/

/-- Within a sorted list whose keys are all at least the wanted one, the indices with
    that key come first. -/
theorem mem_take_equal (entries keys : List Nat) (wanted index : Nat)
    (sorted : entries.Pairwise fun i j => keys.getD i 0 ≤ keys.getD j 0)
    (least : ∀ i ∈ entries, wanted ≤ keys.getD i 0) (member : index ∈ entries)
    (key : keys.getD index 0 = wanted) :
    index ∈ entries.takeWhile fun i => keys.getD i 0 = wanted := by
  induction entries with
  | nil => cases member
  | cons first rest ih =>
    obtain ⟨before, rest_sorted⟩ := List.pairwise_cons.mp sorted
    have here : keys.getD first 0 = wanted := by
      apply Nat.le_antisymm
      · rcases List.mem_cons.mp member with rfl | later
        · exact Nat.le_of_eq key
        · exact key ▸ before index later
      · exact least first List.mem_cons_self
    rw [List.takeWhile_cons_of_pos (by simpa using here)]
    rcases List.mem_cons.mp member with rfl | later
    · exact List.mem_cons_self
    · exact List.mem_cons_of_mem _ (ih rest_sorted
        (fun i inside => least i (List.mem_cons_of_mem _ inside)) later)

/-- Dropping the smaller keys of a sorted list leaves keys that are at least the
    wanted one, among them every index with that key. -/
theorem drop_smaller (entries keys : List Nat) (wanted : Nat)
    (sorted : entries.Pairwise fun i j => keys.getD i 0 ≤ keys.getD j 0) :
    (∀ i ∈ entries.dropWhile fun i => keys.getD i 0 < wanted, wanted ≤ keys.getD i 0) ∧
      ∀ i ∈ entries, keys.getD i 0 = wanted →
        i ∈ entries.dropWhile fun i => keys.getD i 0 < wanted := by
  induction entries with
  | nil => simp
  | cons first rest ih =>
    obtain ⟨before, rest_sorted⟩ := List.pairwise_cons.mp sorted
    by_cases smaller : keys.getD first 0 < wanted
    · obtain ⟨least, found⟩ := ih rest_sorted
      rw [List.dropWhile_cons_of_pos (by simpa using smaller)]
      refine ⟨least, fun i member key => ?_⟩
      rcases List.mem_cons.mp member with rfl | later
      · omega
      · exact found i later key
    · rw [List.dropWhile_cons_of_neg (by simpa using smaller)]
      refine ⟨fun i member => ?_, fun i member _ => member⟩
      rcases List.mem_cons.mp member with rfl | later
      · omega
      · have ordered := before i later
        omega

/-- Cutting a list at the length of its first part leaves the rest. -/
theorem drop_first_part (entries : List Nat) (test : Nat → Bool) :
    entries.drop (entries.takeWhile test).length = entries.dropWhile test := by
  have split := @List.drop_left _ (entries.takeWhile test) (entries.dropWhile test)
  rwa [List.takeWhile_append_dropWhile] at split

/-- Taking as much of a list as its first part has leaves that part. -/
theorem take_first_part (entries : List Nat) (test : Nat → Bool) :
    entries.take (entries.takeWhile test).length = entries.takeWhile test :=
  (List.prefix_iff_eq_take.mp (List.takeWhile_prefix test)).symm

/-- A sorted order's range of a key holds every index with that key. -/
theorem mem_range_of (order keys : List Nat) (wanted index : Nat)
    (sorted : order.Pairwise fun i j => keys.getD i 0 ≤ keys.getD j 0) (member : index ∈ order)
    (key : keys.getD index 0 = wanted) : index ∈ rangeOf order keys wanted := by
  unfold rangeOf equalRange
  simp only [Nat.add_sub_cancel, drop_first_part, take_first_part]
  obtain ⟨least, found⟩ := drop_smaller order keys wanted sorted
  exact mem_take_equal _ keys wanted index (sorted.sublist (List.dropWhile_sublist _)) least
    (found index member key) key

/-- A range of a key holds no index with another key. -/
theorem range_of_key (order keys : List Nat) (wanted index : Nat)
    (member : index ∈ rangeOf order keys wanted) : keys.getD index 0 = wanted := by
  unfold rangeOf equalRange at member
  simp only [Nat.add_sub_cancel, drop_first_part, take_first_part] at member
  have same := List.mem_takeWhile_imp member
  exact of_decide_eq_true same

section Adjacency

variable (orderU keyU orderV keyV : List Nat)

/-- A source's segment holds an arc over every middle edge to every destination. It may hold
    others as well; that these lead between survivors is not part of it. -/
def HoldsArcs (src : Nat) (segment : List Arc) : Prop :=
  ∀ mid ∈ rangeOf orderU keyU (keyU.getD src 0 ^^^ 1), mid ≠ src →
    ∀ dst ∈ rangeOf orderV keyV (keyV.getD mid 0 ^^^ 1), dst ≠ src → ⟨dst, mid⟩ ∈ segment

/-- Appending the arcs of a source appends its segment. -/
theorem push_source_appends (src : Nat) (before after : List Arc)
    (pushed : pushSource orderU keyU orderV keyV before src = .ok after) :
    ∃ segment, after = before ++ segment ∧ HoldsArcs orderU keyU orderV keyV src segment := by
  have arc_step : ∀ mid dst : Nat, ∀ arcs extended : List Arc,
      pushArc src mid arcs dst = .ok extended →
        ∃ segment, extended = arcs ++ segment ∧ (dst ≠ src → ⟨dst, mid⟩ ∈ segment) := by
    intro mid dst arcs extended step
    unfold pushArc at step
    split at step
    · rename_i same
      cases step
      exact ⟨[], by simp, fun different => absurd same different⟩
    · split at step
      · cases step
      · cases step
        exact ⟨[⟨dst, mid⟩], rfl, fun _ => List.mem_cons_self⟩
  have mid_step : ∀ mid : Nat, ∀ arcs extended : List Arc,
      pushMid orderV keyV src arcs mid = .ok extended →
        ∃ segment, extended = arcs ++ segment ∧ (mid ≠ src →
          ∀ dst ∈ rangeOf orderV keyV (keyV.getD mid 0 ^^^ 1), dst ≠ src →
            ⟨dst, mid⟩ ∈ segment) := by
    intro mid arcs extended step
    unfold pushMid at step
    split at step
    · rename_i same
      cases step
      exact ⟨[], by simp, fun different => absurd same different⟩
    · obtain ⟨segments, appended, all⟩ := Segments.foldlM_appends _
        (fun dst segment => dst ≠ src → ⟨dst, mid⟩ ∈ segment) _
        (fun dst _ => arc_step mid dst) arcs extended step
      refine ⟨segments.flatten, appended, fun _ dst member different => ?_⟩
      obtain ⟨segment, added, included⟩ := Segments.mem_appended all dst member
      exact included (added different)
  obtain ⟨segments, appended, all⟩ := Segments.foldlM_appends _
    (fun mid segment => mid ≠ src → ∀ dst ∈ rangeOf orderV keyV (keyV.getD mid 0 ^^^ 1),
      dst ≠ src → ⟨dst, mid⟩ ∈ segment) _ (fun mid _ => mid_step mid) before after pushed
  refine ⟨segments.flatten, appended, fun mid member different dst dst_member dst_different => ?_⟩
  obtain ⟨segment, added, included⟩ := Segments.mem_appended all mid member
  exact included (added different dst dst_member dst_different)

/-- Adding sources appends their segments and records where each starts. -/
theorem add_sources_spec (sources : List Nat) (state last : List Nat × List Arc)
    (segments : List (List Arc)) (arcs : state.2 = segments.flatten)
    (offsets : state.1 ++ [state.2.length] = Segments.starts segments)
    (added : sources.foldlM (addSource orderU keyU orderV keyV) state = .ok last) :
    ∃ more, last.2 = (segments ++ more).flatten ∧
      last.1 ++ [last.2.length] = Segments.starts (segments ++ more) ∧
      List.Forall₂ (HoldsArcs orderU keyU orderV keyV) sources more := by
  induction sources generalizing state segments with
  | nil =>
    cases added
    exact ⟨[], by simpa using arcs, by simpa using offsets, .nil⟩
  | cons src rest ih =>
    rw [List.foldlM_cons] at added
    obtain ⟨next, step, onward⟩ := (Outcome.bind_ok_iff _ _ _).mp added
    unfold addSource at step
    split at step
    · cases step
    · rename_i extended pushed
      cases step
      obtain ⟨segment, appended, holds⟩ :=
        push_source_appends orderU keyU orderV keyV src _ _ pushed
      obtain ⟨more, flat, recorded, all⟩ := ih _ (segments ++ [segment])
        (by simp [appended, arcs]) (by rw [Segments.starts_append, ← offsets, ← arcs, appended])
        onward
      rw [List.append_assoc] at flat recorded
      exact ⟨segment :: more, flat, recorded, .cons holds all⟩

end Adjacency

/-- The range of a survivor's complementary node on a side holds its complementary
    survivors there. -/
theorem complementary_in_range (request : GraphParams) (survivors : List Nat) (side i j : Nat)
    (inRange : request.edgeBits ≤ 32) (i_bound : i < survivors.length)
    (j_bound : j < survivors.length)
    (link : Complementary request.keys request.edgeBits side (survivors.getD i 0)
      (survivors.getD j 0)) :
    j ∈ rangeOf (radixOrder (sideKeys request survivors side)) (sideKeys request survivors side)
      ((sideKeys request survivors side).getD i 0 ^^^ 1) := by
  apply mem_range_of
  · exact radix_order_sorted _ (PeelCore.side_keys_small request survivors inRange side)
  · rw [(radix_order_perm _).mem_iff, List.mem_range]
    simpa [sideKeys] using j_bound
  · rw [PeelCore.side_keys_getD request survivors side j j_bound,
      PeelCore.side_keys_getD request survivors side i i_bound]
    exact link

/-- The arcs of a survivor in a finished adjacency include every two-step link. -/
theorem mem_arcs_of (request : GraphParams) (survivors offsets : List Nat) (arcs : List Arc)
    (start src mid dst : Nat) (inRange : request.edgeBits ≤ 32)
    (built : (List.range survivors.length).foldlM
      (addSource (radixOrder (sideKeys request survivors 0)) (sideKeys request survivors 0)
        (radixOrder (sideKeys request survivors 1)) (sideKeys request survivors 1)) ([], []) =
      .ok (offsets, arcs))
    (src_bound : src < survivors.length) (mid_bound : mid < survivors.length)
    (dst_bound : dst < survivors.length) (mid_different : mid ≠ src) (dst_different : dst ≠ src)
    (mid_link : Complementary request.keys request.edgeBits 0 (survivors.getD src 0)
      (survivors.getD mid 0))
    (dst_link : Complementary request.keys request.edgeBits 1 (survivors.getD mid 0)
      (survivors.getD dst 0)) :
    ⟨dst, mid⟩ ∈ arcsOf ⟨request, survivors, offsets ++ [arcs.length], arcs, start⟩ src := by
  obtain ⟨segments, flat, recorded, all⟩ :=
    add_sources_spec _ _ _ _ _ _ _ [] rfl rfl built
  rw [List.nil_append] at flat recorded
  have count := all.length_eq
  rw [List.length_range] at count
  have inside : src < segments.length := by omega
  have holds := all.get (i := src) (by simpa using src_bound) inside
  rw [List.get_eq_getElem, List.getElem_range] at holds
  simp only at flat recorded
  unfold arcsOf
  simp only
  rw [recorded, flat, Segments.slice segments src inside]
  exact holds mid (complementary_in_range request survivors 0 src mid inRange src_bound mid_bound
    mid_link) mid_different dst (complementary_in_range request survivors 1 mid dst inRange
    mid_bound dst_bound dst_link) dst_different

/-! ## Restored states -/

/-- What a search without a result leaves as it was: everything up to its depth. Entries beyond
    the depth may be anything, since a search writes them before it reads them. -/
structure Restored (depth : Nat) (before after : DfsState) : Prop where
  pathLength : after.path.length = before.path.length
  midsLength : after.mids.length = before.mids.length
  path : ∀ i ≤ depth, after.path.getD i 0 = before.path.getD i 0
  mids : ∀ i < depth, after.mids.getD i 0 = before.mids.getD i 0
  onPath : after.onPath = before.onPath

/-- Nothing changed. -/
theorem Restored.refl (depth : Nat) (state : DfsState) : Restored depth state state :=
  ⟨rfl, rfl, fun _ _ => rfl, fun _ _ => rfl, rfl⟩

/-- Restored twice is restored. -/
theorem Restored.trans {depth : Nat} {first second third : DfsState}
    (left : Restored depth first second) (right : Restored depth second third) :
    Restored depth first third :=
  ⟨right.pathLength.trans left.pathLength, right.midsLength.trans left.midsLength,
    fun i bound => (right.path i bound).trans (left.path i bound),
    fun i bound => (right.mids i bound).trans (left.mids i bound),
    right.onPath.trans left.onPath⟩

/-- Writing beyond a place leaves it as it was. -/
theorem getD_set_ne (entries : List Nat) (here there value : Nat) (apart : here ≠ there) :
    (entries.set here value).getD there 0 = entries.getD there 0 := by
  rw [List.getD_eq_getElem?_getD, List.getElem?_set_ne apart, ← List.getD_eq_getElem?_getD]

/-- Clearing a mark that was set on a clear place restores the marks. -/
theorem set_clear (marks : List Bool) (here : Nat) (clear : marks.getD here false = false) :
    (marks.set here true).set here false = marks := by
  rw [List.set_set]
  rcases Nat.lt_or_ge here marks.length with inside | outside
  · rw [List.getD_eq_getElem _ _ inside] at clear
    rw [← clear, List.set_getElem_self]
  · exact List.set_eq_of_length_le outside

/-- The state with which an arc descends. -/
def descended (depth : Nat) (arc : Arc) (state : DfsState) : DfsState :=
  { state with
    mids := state.mids.set depth arc.mid
    path := state.path.set (depth + 1) arc.dst
    onPath := state.onPath.set arc.dst true
    branches := state.branches + 1 }

/-- Following an arc without a result restores the state if its descent does. -/
theorem follow_arc_restores (context : DfsContext) (depth : Nat)
    (descend : Nat → DfsState → Except SolveError (Option Proof × DfsState))
    (arc : Arc) (state last : DfsState)
    (restores : ∀ before after, descend arc.dst before = .ok (none, after) →
      Restored (depth + 1) before after)
    (followed : followArc context depth descend arc state = .ok (none, last)) :
    Restored depth state last := by
  unfold followArc at followed
  simp only at followed
  split at followed
  · cases followed
  split at followed
  · split at followed
    · split at followed
      · cases followed
      · cases followed
        exact ⟨rfl, by simp, fun _ _ => rfl,
          fun i bound => getD_set_ne _ _ _ _ (by omega), rfl⟩
    · cases followed
      exact ⟨rfl, rfl, fun _ _ => rfl, fun _ _ => rfl, rfl⟩
  · split at followed
    · cases followed
      exact ⟨rfl, rfl, fun _ _ => rfl, fun _ _ => rfl, rfl⟩
    · rename_i free
      split at followed
      · cases followed
      · cases followed
      · rename_i after returned
        cases followed
        have back := restores _ after returned
        rw [not_or, Bool.not_eq_true] at free
        refine ⟨by simpa using back.pathLength, by simpa using back.midsLength, ?_, ?_, ?_⟩
        · intro i bound
          exact (back.path i (by omega)).trans (getD_set_ne _ _ _ _ (by omega))
        · intro i bound
          exact (back.mids i (by omega)).trans (getD_set_ne _ _ _ _ (by omega))
        · simp only [back.onPath]
          exact set_clear _ _ free.2

/-- A search without a result restores its state up to its depth. -/
theorem dfs_restores (context : DfsContext) (levels current depth : Nat) (state last : DfsState)
    (ended : dfs context levels current depth state = .ok (none, last)) :
    Restored depth state last := by
  induction levels generalizing current depth state last with
  | zero =>
    cases ended
    exact Restored.refl depth state
  | succ levels ih =>
    exact (first_found_none _ (Restored depth state) (fun _ => True) _
      (fun arc _ before after restored followed =>
        ⟨restored.trans (follow_arc_restores context depth _ arc before after
          (fun _ _ returned => ih _ _ _ _ returned) followed), trivial⟩)
      state last (Restored.refl depth state) ended).1

/-! ## Completeness -/

/-- A cycle of twenty-one arcs from the start whose edges verify: `P i` is the
    survivor before arc `i` and `M i` its middle edge. -/
structure Target (context : DfsContext) (P M : Nat → Nat) : Prop where
  start : context.start = P 0
  arcs : ∀ i < 20, ⟨P (i + 1), M i⟩ ∈ arcsOf context (P i)
  last : ⟨P 0, M 20⟩ ∈ arcsOf context (P 20)
  distinct : ∀ i ≤ 20, ∀ j ≤ 20, P i = P j → i = j
  accepted : verifyCycle context.request.keys context.request.edgeBits 42
    (Proof.sorted ((List.range 21).flatMap fun i =>
      [context.survivors.getD (P i) 0, context.survivors.getD (M i) 0])) = .ok ()

/-- The state has followed the cycle up to a depth, and marks nothing else. -/
structure Tracks (P M : Nat → Nat) (depth : Nat) (state : DfsState) : Prop where
  pathLength : state.path.length = 21
  midsLength : state.mids.length = 21
  path : ∀ i ≤ depth, state.path.getD i 0 = P i
  mids : ∀ i < depth, state.mids.getD i 0 = M i
  onPath : ∀ x, state.onPath.getD x false = true → ∃ i ≤ depth, P i = x

variable {P M : Nat → Nat}

/-- A restored state follows the cycle as far as before. -/
theorem Tracks.restored {depth : Nat} {before after : DfsState} (tracks : Tracks P M depth before)
    (restored : Restored depth before after) : Tracks P M depth after :=
  ⟨restored.pathLength.trans tracks.pathLength, restored.midsLength.trans tracks.midsLength,
    fun i bound => (restored.path i bound).trans (tracks.path i bound),
    fun i bound => (restored.mids i bound).trans (tracks.mids i bound),
    fun x marked => tracks.onPath x (restored.onPath ▸ marked)⟩

/-- Reading an entry just written. -/
theorem getD_set_self (entries : List Nat) (here value : Nat) (inside : here < entries.length) :
    (entries.set here value).getD here 0 = value := by
  rw [List.getD_eq_getElem?_getD, List.getElem?_set_self inside, Option.getD_some]

/-- Descending along the cycle's next arc follows the cycle one step further. -/
theorem Tracks.descended {depth : Nat} {state : DfsState} (tracks : Tracks P M depth state)
    (room : depth < 20) (arc : Arc) (dst : arc.dst = P (depth + 1)) (mid : arc.mid = M depth) :
    Tracks P M (depth + 1) (descended depth arc state) := by
  refine ⟨by simpa [D2.descended] using tracks.pathLength,
    by simpa [D2.descended] using tracks.midsLength, ?_, ?_, ?_⟩
  · intro i bound
    rcases Nat.lt_or_ge depth i with next | earlier
    · obtain rfl : i = depth + 1 := by omega
      exact (getD_set_self _ _ _ (by rw [tracks.pathLength]; omega)).trans dst
    · exact (getD_set_ne _ _ _ _ (by omega)).trans (tracks.path i earlier)
  · intro i bound
    rcases Nat.lt_or_ge i depth with earlier | next
    · exact (getD_set_ne _ _ _ _ (by omega)).trans (tracks.mids i earlier)
    · obtain rfl : i = depth := by omega
      exact (getD_set_self _ _ _ (by rw [tracks.midsLength]; omega)).trans mid
  · intro x marked
    by_cases here : arc.dst = x
    · exact ⟨depth + 1, Nat.le_refl _, dst.symm.trans here⟩
    · simp only [D2.descended] at marked
      rw [List.getD_eq_getElem?_getD, List.getElem?_set_ne here,
        ← List.getD_eq_getElem?_getD] at marked
      obtain ⟨i, bound, same⟩ := tracks.onPath x marked
      exact ⟨i, by omega, same⟩

/-- The cycle's last arc, followed at full depth, yields the proof. -/
theorem follow_last_arc {context : DfsContext} (target : Target context P M)
    (descend : Nat → DfsState → Except SolveError (Option Proof × DfsState))
    (state last : DfsState) (tracks : Tracks P M 20 state) :
    followArc context 20 descend ⟨P 0, M 20⟩ state ≠ .ok (none, last) := by
  intro followed
  unfold followArc at followed
  simp only at followed
  split at followed
  · cases followed
  rw [if_pos target.start.symm, if_pos trivial] at followed
  have nonces : pathNonces context
      { state with mids := state.mids.set 20 (M 20), branches := state.branches + 1 } =
      (List.range 21).flatMap fun i =>
        [context.survivors.getD (P i) 0, context.survivors.getD (M i) 0] := by
    unfold pathNonces
    simp only [List.flatMap]
    congr 1
    apply List.map_congr_left
    intro i member
    rw [List.mem_range] at member
    rw [tracks.path i (by omega)]
    rcases Nat.lt_or_ge i 20 with earlier | full
    · rw [getD_set_ne _ _ _ _ (by omega), tracks.mids i earlier]
    · obtain rfl : i = 20 := by omega
      rw [getD_set_self _ _ _ (by rw [tracks.midsLength]; omega)]
  rw [nonces, if_pos target.accepted] at followed
  simp at followed

/-- The cycle's next arc, followed before full depth, descends. -/
theorem follow_next_arc {context : DfsContext} (target : Target context P M) (depth : Nat)
    (room : depth < 20)
    (descend : Nat → DfsState → Except SolveError (Option Proof × DfsState))
    (state last : DfsState) (tracks : Tracks P M depth state)
    (finds : ∀ before after, Tracks P M (depth + 1) before →
      descend (P (depth + 1)) before ≠ .ok (none, after)) :
    followArc context depth descend ⟨P (depth + 1), M depth⟩ state ≠ .ok (none, last) := by
  intro followed
  unfold followArc at followed
  simp only at followed
  split at followed
  · cases followed
  have away : P (depth + 1) ≠ context.start := by
    rw [target.start]
    intro same
    have index := target.distinct _ (by omega) _ (by omega) same
    omega
  have free : ¬ (depth + 1 = 21 ∨ state.onPath.getD (P (depth + 1)) false = true) := by
    rintro (full | marked)
    · omega
    · obtain ⟨i, bound, same⟩ := tracks.onPath _ marked
      have index := target.distinct _ (by omega) _ (by omega) same
      omega
  rw [if_neg away, if_neg free] at followed
  split at followed
  · cases followed
  · cases followed
  · rename_i after returned
    exact finds _ after (tracks.descended room ⟨P (depth + 1), M depth⟩ rfl rfl) returned

/-- A search that has followed the cycle so far does not end without a result. The
    induction is on the levels left; the arcs tried before restore the state. -/
theorem dfs_finds {context : DfsContext} (target : Target context P M) (levels depth : Nat)
    (some_left : 1 ≤ levels) (sum : levels + depth = 21) (state last : DfsState)
    (tracks : Tracks P M depth state) :
    dfs context levels (P depth) depth state ≠ .ok (none, last) := by
  induction levels generalizing depth state last with
  | zero => omega
  | succ levels ih =>
    intro ended
    obtain ⟨_, missed⟩ := first_found_none _ (Tracks P M depth)
      (fun arc => arc ≠ if depth = 20 then ⟨P 0, M 20⟩ else ⟨P (depth + 1), M depth⟩) _ (by
        intro arc _ before after before_tracks followed
        refine ⟨before_tracks.restored (follow_arc_restores context depth _ arc before after
          (fun _ _ returned => dfs_restores _ _ _ _ _ _ returned) followed), ?_⟩
        rintro rfl
        split at followed
        · rename_i full
          subst full
          exact follow_last_arc target _ before after before_tracks followed
        · exact follow_next_arc target depth (by omega) _ before after before_tracks
            (fun inner innerLast inner_tracks =>
              ih (depth + 1) (by omega) (by omega) inner innerLast inner_tracks) followed)
      state last tracks ended
    by_cases full : depth = 20
    · subst full
      exact missed _ target.last rfl
    · exact missed _ (target.arcs depth (by omega)) (by rw [if_neg full])

/-- The even and the odd entries of a list of forty-two, in pairs, are the list. -/
theorem pairs_of_order (entries : List Nat) (length : entries.length = 42) :
    ((List.range 21).flatMap fun i => [entries.getD (2 * i) 0, entries.getD (2 * i + 1) 0]) =
      entries := by
  have halves : ∀ (count : Nat) (rest : List Nat), rest.length = 2 * count →
      ((List.range count).flatMap fun i => [rest.getD (2 * i) 0, rest.getD (2 * i + 1) 0]) =
        rest := by
    intro count
    induction count with
    | zero =>
      intro rest empty
      rw [List.length_eq_zero_iff.mp empty]
      rfl
    | succ count ih =>
      intro rest size
      match rest, size with
      | first :: second :: rest, size =>
        rw [List.range_succ_eq_map, List.flatMap_cons, List.flatMap_map]
        have shifted : ∀ i, [(first :: second :: rest).getD (2 * i.succ) 0,
            (first :: second :: rest).getD (2 * i.succ + 1) 0] =
            [rest.getD (2 * i) 0, rest.getD (2 * i + 1) 0] := by
          intro i
          rw [show 2 * i.succ = 2 * i + 1 + 1 by omega]
          rfl
        simp only [shifted]
        rw [ih rest (by simp at size; omega)]
        rfl
  exact halves 21 entries (by omega)

/-- Every accepted proof among the survivors is a target of the search from one of them. -/
theorem target_of_proof (request : GraphParams) (survivors offsets : List Nat) (arcs : List Arc)
    (proof : Proof) (inRange : 1 ≤ request.edgeBits ∧ request.edgeBits ≤ 32)
    (built : (List.range survivors.length).foldlM
      (addSource (radixOrder (sideKeys request survivors 0)) (sideKeys request survivors 0)
        (radixOrder (sideKeys request survivors 1)) (sideKeys request survivors 1)) ([], []) =
      .ok (offsets, arcs))
    (included : proof.nonces ⊆ survivors)
    (accepted : verifyCycle request.keys request.edgeBits 42 proof = .ok ()) :
    ∃ P M, P 0 < survivors.length ∧
      Target ⟨request, survivors, offsets ++ [arcs.length], arcs, P 0⟩ P M := by
  have cycle := (verify_cycle_iff _ _ _ _ inRange (by decide)).mp accepted
  obtain ⟨order, perm, links⟩ := cycle.ordering
  have length : order.length = 42 := perm.length_eq.trans cycle.length
  have unique : order.Nodup := perm.nodup_iff.mpr (cycle.ascending.imp Nat.ne_of_lt)
  have inside : ∀ k, k < 42 → order.getD k 0 ∈ survivors := by
    intro k bound
    rw [List.getD_eq_getElem _ _ (by omega)]
    exact included (perm.mem_iff.mp (List.getElem_mem _))
  have bound : ∀ k, k < 42 → place survivors (order.getD k 0) < survivors.length :=
    fun k small => (place_getElem survivors _ (inside k small)).1
  have found : ∀ k, k < 42 →
      survivors.getD (place survivors (order.getD k 0)) 0 = order.getD k 0 :=
    fun k small => (place_getElem survivors _ (inside k small)).2
  have apart : ∀ j k, j < 42 → k < 42 →
      place survivors (order.getD j 0) = place survivors (order.getD k 0) → j = k := by
    intro j k j_small k_small same
    have entries := place_injective survivors _ _ (inside j j_small) same
    rw [List.getD_eq_getElem _ _ (by omega), List.getD_eq_getElem _ _ (by omega)] at entries
    exact (List.Nodup.getElem_inj_iff unique).mp entries
  have link : ∀ j k, j < 42 → k = (j + 1) % 42 →
      Complementary request.keys request.edgeBits (j % 2) (order.getD j 0) (order.getD k 0) := by
    rintro j k small rfl
    have step := links j (by omega) (Nat.mod_lt _ (by omega))
    simp only [length] at step
    rwa [List.getD_eq_getElem _ _ (by omega), List.getD_eq_getElem _ _ (by omega)]
  -- Arc `i` goes from entry `2 i` over entry `2 i + 1` to the entry after it.
  have arc : ∀ i k start, i ≤ 20 → k = (2 * i + 2) % 42 →
      ⟨place survivors (order.getD k 0), place survivors (order.getD (2 * i + 1) 0)⟩ ∈
        arcsOf ⟨request, survivors, offsets ++ [arcs.length], arcs, start⟩
          (place survivors (order.getD (2 * i) 0)) := by
    intro i k start small next
    have k_small : k < 42 := next ▸ Nat.mod_lt _ (by decide)
    have first := link (2 * i) (2 * i + 1) (by omega) (by omega)
    have second := link (2 * i + 1) k (by omega) (by omega)
    rw [show 2 * i % 2 = 0 by omega] at first
    rw [show (2 * i + 1) % 2 = 1 by omega] at second
    refine mem_arcs_of request survivors offsets arcs start _ _ _ inRange.2 built
      (bound _ (by omega)) (bound _ (by omega)) (bound _ k_small) ?_ ?_ ?_ ?_
    · intro same
      have index := apart _ _ (by omega) (by omega) same
      omega
    · intro same
      have index := apart _ _ k_small (by omega) same
      omega
    · rw [found _ (by omega), found _ (by omega)]
      exact first
    · rw [found _ (by omega), found _ k_small]
      exact second
  refine ⟨fun i => place survivors (order.getD (2 * i) 0),
    fun i => place survivors (order.getD (2 * i + 1) 0), bound 0 (by decide), rfl, ?_, ?_, ?_, ?_⟩
  · intro i small
    exact arc i (2 * (i + 1)) _ (by omega) (by omega)
  · exact arc 20 0 _ (by decide) (by decide)
  · intro i i_small j j_small same
    have index := apart _ _ (by omega) (by omega) same
    omega
  · have entries : ((List.range 21).flatMap fun i =>
        [survivors.getD (place survivors (order.getD (2 * i) 0)) 0,
          survivors.getD (place survivors (order.getD (2 * i + 1) 0)) 0]) = order := by
      refine Eq.trans (congrArg List.flatten (List.map_congr_left ?_))
        (pairs_of_order order length)
      intro i member
      rw [List.mem_range] at member
      rw [found _ (by omega), found _ (by omega)]
    simp only
    rw [entries, sorted_of_perm order proof perm cycle.ascending]
    exact accepted

/-- Between starts nothing is on the path. -/
structure Idle (state : DfsState) : Prop where
  pathLength : state.path.length = 21
  midsLength : state.mids.length = 21
  onPath : ∀ x, state.onPath.getD x false = false

/-- A search from one survivor that ends without a result leaves nothing on the path,
    and did not start on a target. -/
theorem search_from_none (request : GraphParams) (survivors offsets : List Nat) (arcs : List Arc)
    (target : Target ⟨request, survivors, offsets, arcs, P 0⟩ P M) (start : Nat)
    (before after : DfsState) (idle : Idle before)
    (ended : searchFrom request survivors offsets arcs start before = .ok (none, after)) :
    Idle after ∧ start ≠ P 0 := by
  unfold searchFrom at ended
  split at ended
  · rename_i no_arcs
    cases ended
    refine ⟨idle, ?_⟩
    rintro rfl
    have arc := target.arcs 0 (by decide)
    simp only [arcsOf, no_arcs, Nat.sub_self, List.take_zero, List.not_mem_nil] at arc
  · split at ended
    · cases ended
    · cases ended
    · rename_i inner returned
      cases ended
      have restored := dfs_restores _ _ _ _ _ _ returned
      have marks : inner.onPath.set start false = before.onPath := by
        rw [restored.onPath]
        exact set_clear _ _ (idle.onPath start)
      refine ⟨⟨?_, ?_, ?_⟩, ?_⟩
      · exact restored.pathLength.trans (by simpa using idle.pathLength)
      · exact restored.midsLength.trans idle.midsLength
      · simp only [marks]
        exact idle.onPath
      · rintro rfl
        refine dfs_finds target 21 0 (by decide) rfl _ inner ⟨?_, ?_, ?_, ?_, ?_⟩ returned
        · simpa using idle.pathLength
        · exact idle.midsLength
        · intro i bound
          obtain rfl := Nat.le_zero.mp bound
          exact getD_set_self _ _ _ (by rw [idle.pathLength]; decide)
        · intro i bound
          omega
        · intro x marked
          by_cases here : P 0 = x
          · exact ⟨0, Nat.le_refl _, here⟩
          · simp only at marked
            rw [List.getD_eq_getElem?_getD, List.getElem?_set_ne here,
              ← List.getD_eq_getElem?_getD, idle.onPath x] at marked
            cases marked

/-- A two-step search without a result leaves no accepted proof among the survivors. -/
theorem find_cycle_d2_complete (request : GraphParams) (survivors : List Nat) (proof : Proof)
    (inRange : 1 ≤ request.edgeBits ∧ request.edgeBits ≤ 32) (positive : 1 ≤ request.cycleLength)
    (included : proof.nonces ⊆ survivors)
    (ended : findCycleD2 request survivors = .ok none) :
    verifyCycle request.keys request.edgeBits request.cycleLength proof ≠ .ok () := by
  intro accepted
  unfold findCycleD2 at ended
  split at ended
  · rename_i few
    have cycle := (verify_cycle_iff _ _ _ _ inRange positive).mp accepted
    have unique : proof.nonces.Nodup := cycle.ascending.imp Nat.ne_of_lt
    have most := (List.subperm_of_subset unique included).length_le
    have length := cycle.length
    omega
  split at ended
  · exact find_cycle_complete request survivors proof inRange positive included ended accepted
  rename_i length
  split at ended
  · cases ended
  simp only at ended
  split at ended
  · cases ended
  rename_i offsets arcs built
  split at ended
  · cases ended
  rename_i found last searched
  cases ended
  rw [not_not.mp length] at accepted
  obtain ⟨P, M, bound, target⟩ :=
    target_of_proof request survivors offsets arcs proof inRange built included accepted
  have idle : Idle ⟨List.replicate 21 0, List.replicate 21 0,
      List.replicate survivors.length false, 0⟩ := by
    refine ⟨List.length_replicate, List.length_replicate, fun x => ?_⟩
    rw [List.getD_eq_getElem?_getD, List.getElem?_replicate]
    split <;> rfl
  obtain ⟨_, missed⟩ := first_found_none _ Idle (fun start => start ≠ P 0) _
    (fun start _ before after before_idle from_start =>
      search_from_none request survivors _ arcs target start before after before_idle from_start)
    _ _ idle searched
  exact missed (P 0) (List.mem_range.mpr bound) rfl

end CuckatooMiner.D2
