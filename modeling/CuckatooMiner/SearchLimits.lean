import Mathlib
import CuckatooMiner.D2
import CuckatooMiner.Foundation.Limits

/-!
# The limits of the searches

Beside each search stands the same search without limits. It always ends, and the branches that
it counts until its first proof, or until its end, are a number of the graph and of the order of
the survivors. A search is within its limit exactly if that number is: then it finds what
the search without limits finds, and otherwise it fails with the text of its limit.

The arcs of the two-step search are counted without building them, as the ways to go on from a
survivor over a mate on side zero to a mate of that mate on side one that is another survivor.
-/

namespace CuckatooMiner.CpuSearch

open Verify Solver FirstFound Limits

/-! ## The generic search -/

/-- Put a candidate on the path. -/
abbrev SearchState.push (next : Nat) (state : SearchState) : SearchState :=
  { state with used := next :: state.used, path := state.path ++ [next] }

/-- Take it off again. -/
abbrev SearchState.pop (next : Nat) (state : SearchState) : SearchState :=
  { state with path := state.path.dropLast, used := state.used.erase next }

/-- Count one more branch. -/
abbrev SearchState.branch (state : SearchState) : SearchState :=
  { state with branches := state.branches + 1 }

/-- Try one candidate without a limit. -/
def tryNextFreely (descend : Nat → SearchState → Option Proof × SearchState) (next : Nat)
    (state : SearchState) : Option Proof × SearchState :=
  if state.branch.used.contains next then (none, state.branch)
  else enteredFree (SearchState.push next) (SearchState.pop next) (descend next) state.branch

/-- Extend the path by the edges still missing, without a limit. -/
def dfsFreely (search : Search) (start : Nat) :
    Nat → Nat → Nat → SearchState → Option Proof × SearchState
  | 0, current, side, state => (closePath search start current side state.path, state)
  | remaining + 1, current, side, state =>
      let wanted := nodeAt search.nodes current side ^^^ 1
      firstFree (tryNextFreely fun next state => dfsFreely search start remaining next (side ^^^ 1) state)
        (search.candidates side wanted) state

/-- Search from one survivor without a limit. -/
def searchFromFreely (search : Search) (start : Nat) (state : SearchState) :
    Option Proof × SearchState :=
  dfsFreely search start (search.request.cycleLength - 1) start 0
    { state with used := [start], path := [start] }

/-- Search the survivors for a cycle without a limit. -/
def findCycleFreely (request : GraphParams) (survivors : List Nat) : Option Proof × SearchState :=
  firstFree (searchFromFreely (searchOf request survivors)) (List.range survivors.length) ⟨[], [], 0⟩

/-- The branches of the search until its first proof, or until its end if there is none. -/
def countBranches (request : GraphParams) (survivors : List Nat) : Nat :=
  (findCycleFreely request survivors).2.branches

/-- What a search says at its limit. -/
def branchLimit : String :=
  "more than " ++ toString maxSearchBranches ++ " branches in generic cycle search"

/-- The branches found so far. -/
abbrev branchesFound (found : Option Proof × SearchState) : Nat := found.2.branches

/-- Trying a candidate reads the limit, looks for the candidate and enters the descent. -/
theorem try_next_eq (descend : Nat → SearchState → Except Unit (Option Proof × SearchState))
    (next : Nat) : tryNext descend next = fun state =>
      if state.branch.branches > maxSearchBranches then .error ()
      else if state.branch.used.contains next = true then .ok (none, state.branch)
      else entered (SearchState.push next) (SearchState.pop next) (descend next) state.branch := by
  funext state
  simp only [tryNext, entered, SearchState.branch, SearchState.push, SearchState.pop]
  rcases descend next ⟨next :: state.used, state.path ++ [next], state.branches + 1⟩ with
    error | ⟨_ | proof, after⟩ <;> rfl

/-- Trying a candidate is limited if the descent from it is. -/
theorem try_next_limited {descend : Nat → SearchState → Except Unit (Option Proof × SearchState)}
    {descendFree : Nat → SearchState → Option Proof × SearchState} (next : Nat)
    (descends : Limited SearchState.branches branchesFound maxSearchBranches () (descend next)
      (descendFree next)) :
    Limited SearchState.branches branchesFound maxSearchBranches () (tryNext descend next)
      (tryNextFreely descendFree next) := by
  have skips : Limited SearchState.branches branchesFound maxSearchBranches ()
      (fun state => .ok ((none : Option Proof), state)) (fun state => (none, state)) :=
    limited_ok (fun state => (none, state)) fun _ => rfl
  have goes_on := limited_enter (SearchState.push next) (SearchState.pop next) (fun _ => rfl)
    (fun _ => rfl) descends
  rw [try_next_eq]
  exact limited_count SearchState.branch (fun _ => rfl)
    (limited_if (fun state => state.used.contains next = true) skips goes_on)

/-- Extending the path is limited. -/
theorem dfs_limited (search : Search) (start remaining current side : Nat) :
    Limited SearchState.branches branchesFound maxSearchBranches ()
      (dfs search start remaining current side) (dfsFreely search start remaining current side) := by
  induction remaining generalizing current side with
  | zero =>
    exact limited_ok (fun state : SearchState => (closePath search start current side state.path, state))
      fun _ => rfl
  | succ remaining ih =>
    exact limited_first_found _ fun next _ => try_next_limited next (ih next (side ^^^ 1))

/-- A search within its limit finds what the search without a limit finds, and any other
    fails. -/
theorem find_cycle_eq (request : GraphParams) (survivors : List Nat)
    (enough : request.cycleLength ≤ survivors.length) :
    findCycle request survivors =
      if countBranches request survivors ≤ maxSearchBranches then
        .ok (findCycleFreely request survivors).1
      else .error (.searchLimit branchLimit) := by
  have limited : Limited SearchState.branches branchesFound maxSearchBranches ()
      (firstFound (searchFrom (searchOf request survivors)) (List.range survivors.length))
      (firstFree (searchFromFreely (searchOf request survivors)) (List.range survivors.length)) := by
    apply limited_first_found
    intro start _
    obtain ⟨grows, within, beyond⟩ := dfs_limited (searchOf request survivors) start
      (request.cycleLength - 1) start 0
    exact ⟨fun state => grows ⟨[start], [start], state.branches⟩,
      fun state => within ⟨[start], [start], state.branches⟩,
      fun state => beyond ⟨[start], [start], state.branches⟩⟩
  have searched : firstFound (searchFrom (searchOf request survivors)) (List.range survivors.length)
      ⟨[], [], 0⟩ = if countBranches request survivors ≤ maxSearchBranches then
        .ok (findCycleFreely request survivors) else .error () :=
    limited_eq limited ⟨[], [], 0⟩ (Nat.zero_le _)
  unfold findCycle
  rw [if_neg (Nat.not_lt.mpr enough)]
  simp only
  by_cases few : countBranches request survivors ≤ maxSearchBranches
  · rw [if_pos few] at searched ⊢
    split
    · rename_i failed
      cases searched.symm.trans failed
    · rename_i found last ended
      have same := Except.ok.inj (searched.symm.trans ended)
      rw [same]
  · rw [if_neg few] at searched ⊢
    split
    · rfl
    · rename_i found last ended
      cases searched.symm.trans ended

end CuckatooMiner.CpuSearch

namespace CuckatooMiner.D2

open SipHash Verify Solver FirstFound Limits RadixOrder Peel

/-! ## The arcs of the two-step search -/

/-- Append the arc to one destination, unless it returns to the source. -/
def pushArcFreely (src mid : Nat) (arcs : List Arc) (dst : Nat) : List Arc :=
  if dst = src then arcs else arcs ++ [⟨dst, mid⟩]

/-- Append the arcs over one middle edge, unless that is the source. -/
def pushMidFreely (orderV keyV : List Nat) (src : Nat) (arcs : List Arc) (mid : Nat) : List Arc :=
  if mid = src then arcs
  else (rangeOf orderV keyV (keyV.getD mid 0 ^^^ 1)).foldl (pushArcFreely src mid) arcs

/-- Record a source's offset and append its arcs. -/
def addSourceFreely (orderU keyU orderV keyV : List Nat) (state : List Nat × List Arc) (src : Nat) :
    List Nat × List Arc :=
  (state.1 ++ [state.2.length],
    (rangeOf orderU keyU (keyU.getD src 0 ^^^ 1)).foldl (pushMidFreely orderV keyV src) state.2)

/-- The offsets and arcs of all survivors, without a limit. -/
def adjacency (request : GraphParams) (survivors : List Nat) : List Nat × List Arc :=
  let keyU := sideKeys request survivors 0
  let keyV := sideKeys request survivors 1
  (List.range survivors.length).foldl (addSourceFreely (radixOrder keyU) keyU (radixOrder keyV) keyV)
    ([], [])

/-- The survivors at the complement of a survivor's node on a side. -/
def matesOf (request : GraphParams) (survivors : List Nat) (side i : Nat) : Finset Nat :=
  (Finset.range survivors.length).filter fun j =>
    endpoint request.keys request.edgeBits (survivors.getD j 0) side =
      endpoint request.keys request.edgeBits (survivors.getD i 0) side ^^^ 1

/-- The ways to go on over a mate on side zero to another mate of that one on side one. -/
def countArcs (request : GraphParams) (survivors : List Nat) : Nat :=
  ∑ src ∈ Finset.range survivors.length, ∑ mid ∈ matesOf request survivors 0 src,
    ((matesOf request survivors 1 mid).erase src).card

/-- What a search says at its limit on arcs. -/
def arcLimit : String := "D2 adjacency exceeded " ++ toString arcCap ++ " arcs"

section

variable (orderU keyU orderV keyV : List Nat)

/-- Appending one arc is limited. -/
theorem push_arc_limited (src mid dst : Nat) :
    Limited List.length List.length arcCap (SolveError.searchLimit arcLimit)
      (pushArc src mid · dst) (pushArcFreely src mid · dst) := by
  by_cases same : dst = src
  · simp only [pushArc, pushArcFreely, if_pos same]
    exact limited_ok id fun _ => rfl
  · simp only [pushArc, pushArcFreely, if_neg same]
    refine ⟨fun arcs => ?_, fun arcs few => ?_, fun arcs low many => ?_⟩
    · rw [List.length_append]
      exact Nat.le_add_right _ _
    · rw [List.length_append, List.length_singleton] at few
      rw [if_neg (by omega)]
    · rw [List.length_append, List.length_singleton] at many
      rw [if_pos (by omega)]
      rfl

/-- Appending the arcs over one middle edge is limited. -/
theorem push_mid_limited (src mid : Nat) :
    Limited List.length List.length arcCap (SolveError.searchLimit arcLimit)
      (pushMid orderV keyV src · mid) (pushMidFreely orderV keyV src · mid) := by
  by_cases same : mid = src
  · simp only [pushMid, pushMidFreely, if_pos same]
    exact limited_ok id fun _ => rfl
  · simp only [pushMid, pushMidFreely, if_neg same]
    exact limited_fold _ fun dst _ => push_arc_limited src mid dst

/-- Adding the arcs of one source is limited. -/
theorem add_source_limited (src : Nat) :
    Limited (fun state => state.2.length) (fun state => state.2.length) arcCap
      (SolveError.searchLimit arcLimit) (addSource orderU keyU orderV keyV · src)
      (addSourceFreely orderU keyU orderV keyV · src) := by
  have pushes : Limited List.length List.length arcCap (SolveError.searchLimit arcLimit)
      (pushSource orderU keyU orderV keyV · src)
      fun arcs => (rangeOf orderU keyU (keyU.getD src 0 ^^^ 1)).foldl (pushMidFreely orderV keyV src)
        arcs :=
    limited_fold _ fun mid _ => push_mid_limited orderV keyV src mid
  refine ⟨fun state => pushes.grows state.2, fun state few => ?_, fun state low many => ?_⟩
  · rw [addSource, pushes.within state.2 few]
    rfl
  · rw [addSource, pushes.beyond state.2 low many]

end

/-- A fold whose steps add to a count adds up what they add. -/
theorem count_fold {σ : Type} (count : σ → Nat) (push : σ → Nat → σ) (added : Nat → Nat)
    (items : List Nat)
    (adds : ∀ item ∈ items, ∀ state, count (push state item) = count state + added item)
    (state : σ) : count (items.foldl push state) = count state + (items.map added).sum := by
  induction items generalizing state with
  | nil => rfl
  | cons item rest ih =>
    have later := ih fun other member => adds other (List.mem_cons_of_mem _ member)
    rw [List.foldl_cons, later, adds item List.mem_cons_self, List.map_cons, List.sum_cons,
      Nat.add_assoc]

/-- The range of a survivor's complement holds each of its mates once. -/
theorem range_of_mates (request : GraphParams) (survivors : List Nat) (side i : Nat)
    (inRange : request.edgeBits ≤ 32) (bound : i < survivors.length) :
    (rangeOf (radixOrder (sideKeys request survivors side)) (sideKeys request survivors side)
        ((sideKeys request survivors side).getD i 0 ^^^ 1)).Nodup ∧
      (rangeOf (radixOrder (sideKeys request survivors side)) (sideKeys request survivors side)
        ((sideKeys request survivors side).getD i 0 ^^^ 1)).toFinset =
          matesOf request survivors side i := by
  have perm := radix_order_perm (sideKeys request survivors side)
  have length : (sideKeys request survivors side).length = survivors.length := by simp [sideKeys]
  rw [length] at perm
  have cut : (rangeOf (radixOrder (sideKeys request survivors side)) (sideKeys request survivors side)
      ((sideKeys request survivors side).getD i 0 ^^^ 1)).Sublist
        (radixOrder (sideKeys request survivors side)) :=
    (List.take_sublist _ _).trans (List.drop_sublist _ _)
  refine ⟨(perm.nodup_iff.mpr List.nodup_range).sublist cut, ?_⟩
  apply Finset.ext
  intro j
  rw [List.mem_toFinset, matesOf, Finset.mem_filter, Finset.mem_range]
  constructor
  · intro member
    have inside : j < survivors.length := List.mem_range.mp (perm.mem_iff.mp (cut.subset member))
    refine ⟨inside, ?_⟩
    have key := range_of_key _ _ _ j member
    rwa [PeelCore.side_keys_getD request survivors side j inside,
      PeelCore.side_keys_getD request survivors side i bound] at key
  · rintro ⟨inside, link⟩
    exact complementary_in_range request survivors side i j inRange bound inside link

/-- Without a limit there are as many arcs over a middle edge as it has other mates. -/
theorem push_mid_length (request : GraphParams) (survivors : List Nat) (src mid : Nat)
    (inRange : request.edgeBits ≤ 32) (bound : mid < survivors.length) (different : mid ≠ src)
    (arcs : List Arc) :
    (pushMidFreely (radixOrder (sideKeys request survivors 1)) (sideKeys request survivors 1) src arcs
      mid).length = arcs.length + ((matesOf request survivors 1 mid).erase src).card := by
  obtain ⟨unique, mates⟩ := range_of_mates request survivors 1 mid inRange bound
  have one (dst : Nat) (before : List Arc) : (pushArcFreely src mid before dst).length =
      before.length + if dst ≠ src then 1 else 0 := by
    rw [pushArcFreely]
    by_cases same : dst = src
    · rw [if_pos same, if_neg (not_not.mpr same), Nat.add_zero]
    · rw [if_neg same, if_pos same, List.length_append, List.length_singleton]
  rw [pushMidFreely, if_neg different, count_fold List.length _ _ _ fun dst _ before => one dst before,
    ← List.sum_toFinset _ unique, mates, ← Finset.card_filter, Finset.filter_ne']

/-- Without a limit there are as many arcs as ways to go on. -/
theorem adjacency_length (request : GraphParams) (survivors : List Nat)
    (inRange : request.edgeBits ≤ 32) :
    (adjacency request survivors).2.length = countArcs request survivors := by
  have source : ∀ src ∈ List.range survivors.length, ∀ state : List Nat × List Arc,
      (addSourceFreely (radixOrder (sideKeys request survivors 0)) (sideKeys request survivors 0)
        (radixOrder (sideKeys request survivors 1)) (sideKeys request survivors 1) state src).2.length =
        state.2.length + ∑ mid ∈ matesOf request survivors 0 src,
          ((matesOf request survivors 1 mid).erase src).card := by
    intro src member state
    have bound := List.mem_range.mp member
    obtain ⟨unique, mates⟩ := range_of_mates request survivors 0 src inRange bound
    rw [← mates, List.sum_toFinset _ unique]
    refine count_fold List.length _ _ _ (fun mid listed before => ?_) state.2
    rw [← List.mem_toFinset, mates, matesOf, Finset.mem_filter, Finset.mem_range] at listed
    refine push_mid_length request survivors src mid inRange listed.1 ?_ before
    rintro rfl
    exact complement_ne _ listed.2.symm
  refine (count_fold (fun state : List Nat × List Arc => state.2.length) _ _ _ source ([], [])).trans ?_
  rw [countArcs, List.length_nil, Nat.zero_add, ← List.sum_toFinset _ List.nodup_range,
    List.toFinset_range]

/-! ## The branches of the two-step search -/

/-- Count one more branch. -/
abbrev DfsState.branch (state : DfsState) : DfsState := { state with branches := state.branches + 1 }

/-- Go along an arc from a depth. -/
abbrev DfsState.enter (depth : Nat) (arc : Arc) (state : DfsState) : DfsState :=
  { state with
    mids := state.mids.set depth arc.mid
    path := state.path.set (depth + 1) arc.dst
    onPath := state.onPath.set arc.dst true }

/-- A survivor is no longer on the path. -/
abbrev DfsState.leave (survivor : Nat) (state : DfsState) : DfsState :=
  { state with onPath := state.onPath.set survivor false }

/-- Start a path at a survivor. -/
abbrev DfsState.start (survivor : Nat) (state : DfsState) : DfsState :=
  { state with path := state.path.set 0 survivor, onPath := state.onPath.set survivor true }

/-- Back at the start: a proof if this is the last arc and the verifier agrees. -/
def closeArc (context : DfsContext) (depth : Nat) (arc : Arc) (state : DfsState) :
    Option Proof × DfsState :=
  if depth + 1 = 21 then
    let state := { state with mids := state.mids.set depth arc.mid }
    let proof := Proof.sorted (pathNonces context state)
    if verifyCycle context.request.keys context.request.edgeBits 42 proof = .ok () then
      (some proof, state)
    else (none, state)
  else (none, state)

/-- Follow one arc without a limit. -/
def followArcFreely (context : DfsContext) (depth : Nat)
    (descend : Nat → DfsState → Option Proof × DfsState) (arc : Arc) (state : DfsState) :
    Option Proof × DfsState :=
  if arc.dst = context.start then closeArc context depth arc state.branch
  else if depth + 1 = 21 ∨ state.branch.onPath.getD arc.dst false = true then (none, state.branch)
  else enteredFree (DfsState.enter depth arc) (DfsState.leave arc.dst) (descend arc.dst) state.branch

/-- Search from the survivor at a depth without a limit. -/
def dfsFreely (context : DfsContext) : Nat → Nat → Nat → DfsState → Option Proof × DfsState
  | 0, _, _, state => (none, state)
  | levels + 1, current, depth, state =>
      firstFree
        (followArcFreely context depth fun dst state => dfsFreely context levels dst (depth + 1) state)
        (arcsOf context current) state

/-- Search from one survivor without a limit. -/
def searchFromFreely (request : GraphParams) (survivors offsets : List Nat) (arcs : List Arc)
    (start : Nat) (state : DfsState) : Option Proof × DfsState :=
  if offsets.getD start 0 = offsets.getD (start + 1) 0 then (none, state)
  else enteredFree (DfsState.start start) (DfsState.leave start)
    (dfsFreely ⟨request, survivors, offsets, arcs, start⟩ 21 start 0) state

/-- Search the survivors for a cycle without a limit, over all their arcs. -/
def findCycleD2Freely (request : GraphParams) (survivors : List Nat) : Option Proof × DfsState :=
  let (offsets, arcs) := adjacency request survivors
  firstFree (searchFromFreely request survivors (offsets ++ [arcs.length]) arcs)
    (List.range survivors.length)
    ⟨List.replicate 21 0, List.replicate 21 0, List.replicate survivors.length false, 0⟩

/-- The branches of the search until its first proof, or until its end if there is none. -/
def countBranches (request : GraphParams) (survivors : List Nat) : Nat :=
  (findCycleD2Freely request survivors).2.branches

/-- What a search says at its limit on branches. -/
def branchLimit : String := "more than " ++ toString maxSearchBranches ++ " branches in D2 search"

/-- The branches found so far. -/
abbrev branchesFound (found : Option Proof × DfsState) : Nat := found.2.branches

/-- A search that keeps within the limit on branches or says that it does not. -/
abbrev BranchLimited (visit : DfsState → Except SolveError (Option Proof × DfsState))
    (free : DfsState → Option Proof × DfsState) : Prop :=
  Limited DfsState.branches branchesFound maxSearchBranches (.searchLimit branchLimit) visit free

/-- Following an arc reads the limit, and closes the path, turns back or goes along. -/
theorem follow_arc_eq (context : DfsContext) (depth : Nat)
    (descend : Nat → DfsState → Except SolveError (Option Proof × DfsState)) (arc : Arc) :
    followArc context depth descend arc = fun state =>
      if state.branch.branches > maxSearchBranches then .error (.searchLimit branchLimit)
      else if arc.dst = context.start then .ok (closeArc context depth arc state.branch)
      else if depth + 1 = 21 ∨ state.branch.onPath.getD arc.dst false = true then
        .ok (none, state.branch)
      else entered (DfsState.enter depth arc) (DfsState.leave arc.dst) (descend arc.dst)
        state.branch := by
  funext state
  simp only [followArc, entered, closeArc, DfsState.branch, DfsState.enter, DfsState.leave]
  by_cases last : state.branches + 1 > maxSearchBranches
  · simp only [if_pos last]
    rfl
  by_cases back : arc.dst = context.start
  · simp only [if_neg last, if_pos back]
    by_cases full : depth + 1 = 21
    · simp only [if_pos full]
      split <;> rfl
    · simp only [if_neg full]
  by_cases stop : depth + 1 = 21 ∨ state.onPath.getD arc.dst false = true
  · simp only [if_neg last, if_neg back, if_pos stop]
  simp only [if_neg last, if_neg back, if_neg stop]
  rcases descend arc.dst _ with error | ⟨_ | proof, after⟩ <;> rfl

/-- Following an arc is limited if the descent from it is. -/
theorem follow_arc_limited (context : DfsContext) (depth : Nat)
    {descend : Nat → DfsState → Except SolveError (Option Proof × DfsState)}
    {descendFree : Nat → DfsState → Option Proof × DfsState} (arc : Arc)
    (descends : BranchLimited (descend arc.dst) (descendFree arc.dst)) :
    BranchLimited (followArc context depth descend arc)
      (followArcFreely context depth descendFree arc) := by
  have closes : BranchLimited (fun state => .ok (closeArc context depth arc state))
      (closeArc context depth arc) := by
    apply limited_ok
    intro state
    simp only [closeArc]
    split
    · split <;> rfl
    · rfl
  have turns_back : BranchLimited (fun state => .ok ((none : Option Proof), state))
      (fun state => (none, state)) := limited_ok (fun state : DfsState => (none, state)) fun _ => rfl
  have goes_along := limited_enter (DfsState.enter depth arc) (DfsState.leave arc.dst)
    (fun _ => rfl) (fun _ => rfl) descends
  rw [follow_arc_eq]
  exact limited_count DfsState.branch (fun _ => rfl)
    (limited_if (fun _ => arc.dst = context.start) closes
      (limited_if (fun state => depth + 1 = 21 ∨ state.onPath.getD arc.dst false = true) turns_back
        goes_along))

/-- Searching from the survivor at a depth is limited. -/
theorem dfs_limited (context : DfsContext) (levels current depth : Nat) :
    BranchLimited (dfs context levels current depth) (dfsFreely context levels current depth) := by
  induction levels generalizing current depth with
  | zero => exact limited_ok (fun state : DfsState => (none, state)) fun _ => rfl
  | succ levels ih =>
    exact limited_first_found _ fun arc _ => follow_arc_limited context depth arc (ih arc.dst (depth + 1))

/-- Searching from one survivor is limited. -/
theorem search_from_limited (request : GraphParams) (survivors offsets : List Nat) (arcs : List Arc)
    (start : Nat) :
    BranchLimited (searchFrom request survivors offsets arcs start)
      (searchFromFreely request survivors offsets arcs start) := by
  have passes : BranchLimited (fun state => .ok ((none : Option Proof), state))
      (fun state => (none, state)) := limited_ok (fun state : DfsState => (none, state)) fun _ => rfl
  have searches := limited_enter (DfsState.start start) (DfsState.leave start) (fun _ => rfl)
    (fun _ => rfl) (dfs_limited ⟨request, survivors, offsets, arcs, start⟩ 21 start 0)
  have same : searchFrom request survivors offsets arcs start = fun state =>
      if offsets.getD start 0 = offsets.getD (start + 1) 0 then .ok (none, state)
      else entered (DfsState.start start) (DfsState.leave start)
        (dfs ⟨request, survivors, offsets, arcs, start⟩ 21 start 0) state := by
    funext state
    simp only [searchFrom, entered, DfsState.start, DfsState.leave]
    by_cases idle : offsets.getD start 0 = offsets.getD (start + 1) 0
    · rw [if_pos idle, if_pos idle]
    · rw [if_neg idle, if_neg idle]
      rcases dfs _ 21 start 0 _ with error | ⟨_ | proof, after⟩ <;> rfl
  rw [same]
  exact limited_if (fun _ => offsets.getD start 0 = offsets.getD (start + 1) 0) passes searches

/-- What a two-step search comes to, by its counts of arcs and branches. -/
theorem find_cycle_d2_eq (request : GraphParams) (survivors : List Nat)
    (inRange : request.edgeBits ≤ 32) (length : request.cycleLength = 42)
    (enough : 42 ≤ survivors.length) (few : survivors.length ≤ u32Max) :
    findCycleD2 request survivors =
      if countArcs request survivors ≤ arcCap then
        if countBranches request survivors ≤ maxSearchBranches then
          .ok (findCycleD2Freely request survivors).1
        else .error (.searchLimit branchLimit)
      else .error (.searchLimit arcLimit) := by
  have built : (List.range survivors.length).foldlM
      (addSource (radixOrder (sideKeys request survivors 0)) (sideKeys request survivors 0)
        (radixOrder (sideKeys request survivors 1)) (sideKeys request survivors 1)) ([], []) =
      if countArcs request survivors ≤ arcCap then .ok (adjacency request survivors)
      else .error (.searchLimit arcLimit) := by
    rw [← adjacency_length request survivors inRange]
    exact limited_eq (limited_fold _ fun src _ => add_source_limited _ _ _ _ src) ([], [])
      (Nat.zero_le _)
  have searched : firstFound (searchFrom request survivors ((adjacency request survivors).1 ++
        [(adjacency request survivors).2.length]) (adjacency request survivors).2)
      (List.range survivors.length)
      ⟨List.replicate 21 0, List.replicate 21 0, List.replicate survivors.length false, 0⟩ =
      if countBranches request survivors ≤ maxSearchBranches then
        .ok (findCycleD2Freely request survivors) else .error (.searchLimit branchLimit) :=
    limited_eq (limited_first_found _ fun start _ => search_from_limited request survivors _ _ start)
      ⟨List.replicate 21 0, List.replicate 21 0, List.replicate survivors.length false, 0⟩
      (Nat.zero_le _)
  rw [findCycleD2, if_neg (by omega), if_neg (by omega), if_neg (Nat.not_lt.mpr few)]
  simp only [built]
  by_cases room : countArcs request survivors ≤ arcCap
  · simp only [if_pos room, searched]
    by_cases within : countBranches request survivors ≤ maxSearchBranches
    · simp only [if_pos within]
    · simp only [if_neg within]
  · simp only [if_neg room]

end CuckatooMiner.D2
