import Mathlib
import CuckatooMiner.Solver
import CuckatooMiner.TwoCore
import CuckatooMiner.Foundation.FirstFound

/-!
# The generic cycle search

`find_cycle` indexes the survivors by their nodes and searches from every
survivor for an alternating path back to it. The search keeps one shared set of
used survivors, one path and one branch count; every candidate counts as a branch,
also one already on the path, and the branch limit ends the whole search.

A search that ends without a proof has tried every alternating path: it has
restored its used set and its path at each return, so no earlier attempt can
hide a later one. Hence every proof whose edges are all among the survivors is
found unless the branch limit is hit first.
-/

namespace CuckatooMiner.CpuSearch

open SipHash Verify Solver FirstFound

/-- The edge indices at each node of one side; absent nodes have no entry. -/
abbrev EndpointLookup := Nat → Option (List Nat)

/-- Append an edge index to a node's entry, creating the entry if need be. -/
def EndpointLookup.push (lookup : EndpointLookup) (node edgeIndex : Nat) : EndpointLookup :=
  fun key => if key = node then some ((lookup node).getD [] ++ [edgeIndex]) else lookup key

/-- One lookup a side. -/
abbrev EndpointIndex := Pair EndpointLookup

/-- The endpoints of the edges and the lookups over them. -/
def endpointIndex (keys : SipKeys) (edgeBits : Nat) (edges : List Nat) :
    List (Pair Nat) × EndpointIndex :=
  let endpoints := edges.map (endpointPair keys edgeBits)
  let index := endpoints.zipIdx.foldl (fun index entry =>
    ⟨index.zero.push entry.1.zero entry.2, index.one.push entry.1.one entry.2⟩)
    (⟨fun _ => none, fun _ => none⟩ : EndpointIndex)
  (endpoints, index)

/-- What a search reads. -/
structure Search where
  request : GraphParams
  survivors : List Nat
  nodes : List (Pair Nat)
  index : EndpointIndex

/-- What a search changes. -/
structure SearchState where
  used : List Nat
  path : List Nat
  branches : Nat
deriving DecidableEq, Repr

/-- The branch limit of the search. -/
def maxSearchBranches : Nat := 100000000

/-- The survivors at a node. -/
def Search.candidates (search : Search) (side node : Nat) : List Nat :=
  ((search.index.get side) node).getD []

/-- A complete path closes when its first edge is a candidate once more, and
    counts only if the verifier accepts it. -/
def closePath (search : Search) (start current side : Nat) (path : List Nat) : Option Proof :=
  let closes := (search.candidates side (nodeAt search.nodes current side ^^^ 1)).contains start
  if ¬ closes then none
  else
    let proof := Proof.sorted (path.map (search.survivors.getD · 0))
    if verifyCycle search.request.keys search.request.edgeBits search.request.cycleLength proof =
      .ok () then some proof
    else none

/-- Try one candidate: count the branch, skip a used one, otherwise descend with
    it on the path and take it off again. -/
def tryNext (descend : Nat → SearchState → Except Unit (Option Proof × SearchState))
    (next : Nat) (state : SearchState) : Except Unit (Option Proof × SearchState) :=
  let state := { state with branches := state.branches + 1 }
  if state.branches > maxSearchBranches then .error ()
  else if state.used.contains next then .ok (none, state)
  else
    match descend next { state with used := next :: state.used, path := state.path ++ [next] } with
    | .error error => .error error
    | .ok (some proof, after) => .ok (some proof, after)
    | .ok (none, after) =>
        .ok (none, { after with path := after.path.dropLast, used := after.used.erase next })

/-- Extend the path by the edges still missing, `cycle_length - path.len()` of them. -/
def dfs (search : Search) (start : Nat) :
    Nat → Nat → Nat → SearchState → Except Unit (Option Proof × SearchState)
  | 0, current, side, state => .ok (closePath search start current side state.path, state)
  | remaining + 1, current, side, state =>
      let wanted := nodeAt search.nodes current side ^^^ 1
      firstFound
        (tryNext fun next state => dfs search start remaining next (side ^^^ 1) state)
        (search.candidates side wanted) state

/-- Search from one survivor with a fresh path; the branch count goes on. -/
def searchFrom (search : Search) (start : Nat) (state : SearchState) :
    Except Unit (Option Proof × SearchState) :=
  dfs search start (search.request.cycleLength - 1) start 0
    { state with used := [start], path := [start] }

/-- Search the survivors for a cycle. The survivors may be any list: they are not assumed to be
    distinct or to be edges of the graph. -/
def findCycle (request : GraphParams) (survivors : List Nat) :
    Except SolveError (Option Proof) :=
  if survivors.length < request.cycleLength then .ok none
  else
    let (nodes, index) := endpointIndex request.keys request.edgeBits survivors
    let search : Search := ⟨request, survivors, nodes, index⟩
    match firstFound (searchFrom search) (List.range survivors.length) ⟨[], [], 0⟩ with
    | .error () => .error (.searchLimit ("more than " ++ toString maxSearchBranches ++
        " branches in generic cycle search"))
    | .ok (found, _) => .ok found

/-! ## The index -/

/-- Folding entries into a lookup appends, to each node, the indices of its entries. -/
theorem lookup_fold (entries : List (Nat × Nat)) (lookup : EndpointLookup) (node : Nat) :
    ((entries.foldl (fun lookup entry => lookup.push entry.1 entry.2) lookup) node).getD [] =
      (lookup node).getD [] ++ (entries.filter (·.1 = node)).map Prod.snd := by
  induction entries generalizing lookup with
  | nil => simp
  | cons entry rest ih =>
    rw [List.foldl_cons, ih]
    by_cases here : entry.1 = node
    · subst here
      simp [EndpointLookup.push]
    · have elsewhere : node ≠ entry.1 := fun same => here same.symm
      simp [EndpointLookup.push, here, elsewhere]

/-- The search over an index built from the survivors. -/
def searchOf (request : GraphParams) (survivors : List Nat) : Search :=
  ⟨request, survivors, (endpointIndex request.keys request.edgeBits survivors).1,
    (endpointIndex request.keys request.edgeBits survivors).2⟩

/-- Each side of the index is a lookup filled on its own. -/
theorem index_fold_side (entries : List (Pair Nat × Nat)) (index : EndpointIndex) (side : Nat) :
    (entries.foldl (fun index entry =>
      (⟨index.zero.push entry.1.zero entry.2, index.one.push entry.1.one entry.2⟩ :
        EndpointIndex)) index).get side =
      (entries.map fun entry => (entry.1.get side, entry.2)).foldl
        (fun lookup entry => lookup.push entry.1 entry.2) (index.get side) := by
  induction entries generalizing index with
  | nil => rfl
  | cons entry rest ih =>
    rw [List.foldl_cons, ih, List.map_cons, List.foldl_cons]
    cases side <;> rfl

/-- The candidates at a node are the survivors with that node. -/
theorem mem_candidates (request : GraphParams) (survivors : List Nat) (side node i : Nat) :
    i ∈ (searchOf request survivors).candidates side node ↔
      i < survivors.length ∧ nodeAt (searchOf request survivors).nodes i side = node := by
  have empty : Pair.get (⟨fun _ => none, fun _ => none⟩ : EndpointIndex) side node = none := by
    cases side <;> rfl
  rw [Search.candidates, searchOf, endpointIndex, index_fold_side, lookup_fold, empty]
  simp only [Option.getD_none, List.nil_append, List.mem_map, List.mem_filter, Prod.exists,
    decide_eq_true_eq, exists_eq_right, nodeAt]
  constructor
  · rintro ⟨pair, place, entry, here⟩
    obtain ⟨rfl, rfl⟩ : pair.get side = node ∧ place = i := by simpa using here
    obtain ⟨bound, rfl⟩ := List.getElem?_eq_some_iff.mp (List.mk_mem_zipIdx_iff_getElem?.mp entry)
    exact ⟨by simpa using bound, by rw [List.getD_eq_getElem _ _ bound]⟩
  · rintro ⟨bound, rfl⟩
    have inside : i < (survivors.map (endpointPair request.keys request.edgeBits)).length := by
      simpa using bound
    refine ⟨_, i, List.mk_mem_zipIdx_iff_getElem?.mpr (List.getElem?_eq_getElem inside), ?_⟩
    rw [List.getD_eq_getElem _ _ inside]

/-! ## Soundness -/

/-- A closed path returns accepted proofs only. -/
theorem close_path_sound (search : Search) (start current side : Nat) (path : List Nat)
    (proof : Proof) (closed : closePath search start current side path = some proof) :
    verifyCycle search.request.keys search.request.edgeBits search.request.cycleLength proof =
      .ok () := by
  unfold closePath at closed
  simp only at closed
  split at closed
  · cases closed
  · split at closed
    · rename_i accepted
      cases closed
      exact accepted
    · cases closed

/-- A result of trying a candidate is a result of descending from it. -/
theorem try_next_some (descend : Nat → SearchState → Except Unit (Option Proof × SearchState))
    (next : Nat) (state last : SearchState) (proof : Proof)
    (found : tryNext descend next state = .ok (some proof, last)) :
    ∃ before, descend next before = .ok (some proof, last) := by
  unfold tryNext at found
  simp only at found
  split at found
  · cases found
  · split at found
    · cases found
    · split at found
      · cases found
      · rename_i descended
        cases found
        exact ⟨_, descended⟩
      · cases found

/-- The search returns accepted proofs only. -/
theorem dfs_sound (search : Search) (start remaining current side : Nat)
    (state last : SearchState) (proof : Proof)
    (found : dfs search start remaining current side state = .ok (some proof, last)) :
    verifyCycle search.request.keys search.request.edgeBits search.request.cycleLength proof =
      .ok () := by
  induction remaining generalizing current side state with
  | zero =>
    simp only [dfs, Except.ok.injEq, Prod.mk.injEq] at found
    exact close_path_sound search start current side state.path proof found.1
  | succ remaining ih =>
    obtain ⟨next, _, before, tried⟩ := first_found_some _ _ _ _ _ found
    obtain ⟨entered, descended⟩ := try_next_some _ _ _ _ _ tried
    exact ih _ _ _ descended

/-! ## Completeness -/

/-- Edge `j` is complementary to edge `i` on a side. -/
def Linked (search : Search) (side i j : Nat) : Prop :=
  j ∈ search.candidates side (nodeAt search.nodes i side ^^^ 1)

/-- The listed edges continue a path from its current edge without using one
    twice, alternating sides, and the last of them links back to the start. -/
def Continues (search : Search) (start : Nat) : Nat → Nat → List Nat → List Nat → Prop
  | current, side, _, [] => Linked search side current start
  | current, side, used, next :: rest =>
      Linked search side current next ∧ next ∉ used ∧
        Continues search start next (side ^^^ 1) (next :: used) rest

/-- No list of edges of a length completes a path to an accepted proof. -/
def Exhausted (search : Search) (start remaining current side : Nat) (used path : List Nat) :
    Prop :=
  ∀ rest : List Nat, rest.length = remaining → Continues search start current side used rest →
    verifyCycle search.request.keys search.request.edgeBits search.request.cycleLength
      (Proof.sorted ((path ++ rest).map (search.survivors.getD · 0))) ≠ .ok ()

/-- A path that does not close into a proof is exhausted. -/
theorem close_path_none (search : Search) (start current side : Nat) (used path : List Nat)
    (closed : closePath search start current side path = none) :
    Exhausted search start 0 current side used path := by
  intro rest length continues accepted
  obtain rfl := List.length_eq_zero_iff.mp length
  have linked : (search.candidates side (nodeAt search.nodes current side ^^^ 1)).contains start =
      true := List.contains_iff_mem.mpr continues
  rw [List.append_nil] at accepted
  simp only [closePath, linked, not_true_eq_false, if_false, accepted, if_true] at closed
  cases closed

/-- Trying a candidate without a result restores the used set and the path, and
    exhausts the paths through that candidate if its descent does. -/
theorem try_next_none (search : Search) (start remaining side : Nat)
    (descend : Nat → SearchState → Except Unit (Option Proof × SearchState))
    (next : Nat) (state last : SearchState)
    (descended : ∀ before after, descend next before = .ok (none, after) →
      after.used = before.used ∧ after.path = before.path ∧
        Exhausted search start remaining next side before.used before.path)
    (tried : tryNext descend next state = .ok (none, last)) :
    (last.used = state.used ∧ last.path = state.path) ∧
      (next ∉ state.used →
        Exhausted search start remaining next side (next :: state.used) (state.path ++ [next])) := by
  unfold tryNext at tried
  simp only at tried
  split at tried
  · cases tried
  · split at tried
    · rename_i present
      cases tried
      exact ⟨⟨rfl, rfl⟩, fun absent => absurd (List.contains_iff_mem.mp present) absent⟩
    · split at tried
      · cases tried
      · cases tried
      · rename_i after returned
        cases tried
        obtain ⟨used, path, exhausted⟩ := descended _ after returned
        refine ⟨⟨?_, ?_⟩, fun _ => exhausted⟩
        · simp only [used, List.erase_cons_head]
        · simp only [path, List.dropLast_concat]

/-- A search without a result restores its state and has exhausted all paths. -/
theorem dfs_complete (search : Search) (start remaining current side : Nat)
    (state last : SearchState)
    (ended : dfs search start remaining current side state = .ok (none, last)) :
    last.used = state.used ∧ last.path = state.path ∧
      Exhausted search start remaining current side state.used state.path := by
  induction remaining generalizing current side state last with
  | zero =>
    simp only [dfs, Except.ok.injEq, Prod.mk.injEq] at ended
    obtain ⟨closed, rfl⟩ := ended
    exact ⟨rfl, rfl, close_path_none search start current side _ _ closed⟩
  | succ remaining ih =>
    obtain ⟨⟨used, path⟩, settled⟩ := first_found_none _
      (fun before => before.used = state.used ∧ before.path = state.path)
      (fun next => next ∉ state.used → Exhausted search start remaining next (side ^^^ 1)
        (next :: state.used) (state.path ++ [next])) _ (by
          rintro next _ before after ⟨used, path⟩ tried
          have outcome := try_next_none search start remaining (side ^^^ 1) _ next before
            after (fun _ _ descended => ih _ _ _ _ descended) tried
          rwa [used, path] at outcome) state last ⟨rfl, rfl⟩ ended
    refine ⟨used, path, ?_⟩
    rintro (_ | ⟨next, rest⟩) length continues
    · cases length
    · obtain ⟨linked, unused, onward⟩ := continues
      have exhausted := settled next linked unused rest (by simpa using length) onward
      simpa only [List.append_assoc, List.singleton_append] using exhausted

/-! ## Cycles among the survivors -/

/-- A survivor's place among the survivors. -/
def place (survivors : List Nat) (edge : Nat) : Nat := survivors.idxOf edge

/-- A survivor is found at its place. -/
theorem place_getElem (survivors : List Nat) (edge : Nat) (member : edge ∈ survivors) :
    place survivors edge < survivors.length ∧ survivors.getD (place survivors edge) 0 = edge := by
  have bound : survivors.idxOf edge < survivors.length := List.idxOf_lt_length_iff.mpr member
  exact ⟨bound, by rw [place, List.getD_eq_getElem _ _ bound, List.getElem_idxOf bound]⟩

/-- Different survivors have different places. -/
theorem place_injective (survivors : List Nat) (e f : Nat) (member : e ∈ survivors)
    (same : place survivors e = place survivors f) : e = f :=
  (List.idxOf_inj member).mp same

/-- Complementary survivors are linked in the search over them. -/
theorem linked_of_complementary (request : GraphParams) (survivors : List Nat) (side e f : Nat)
    (sided : side < 2) (e_member : e ∈ survivors) (f_member : f ∈ survivors)
    (mated : Complementary request.keys request.edgeBits side e f) :
    Linked (searchOf request survivors) side (place survivors e) (place survivors f) := by
  obtain ⟨e_bound, e_found⟩ := place_getElem survivors e e_member
  obtain ⟨f_bound, f_found⟩ := place_getElem survivors f f_member
  rw [List.getD_eq_getElem _ _ e_bound] at e_found
  rw [List.getD_eq_getElem _ _ f_bound] at f_found
  rw [Linked, mem_candidates]
  refine ⟨f_bound, ?_⟩
  rw [searchOf, endpointIndex, node_at_endpoints _ _ f_bound sided,
    node_at_endpoints _ _ e_bound sided, e_found, f_found]
  exact mated

/-- From any entry of a cyclic order the later entries continue a path, and the
    last of them links back to the first. The induction is on the entries left. -/
theorem order_continues (request : GraphParams) (survivors order : List Nat)
    (included : order ⊆ survivors) (unique : order.Nodup) (nonempty : 0 < order.length)
    (links : ∀ k, (inside : k < order.length) → (wrapped : (k + 1) % order.length < order.length) →
      Complementary request.keys request.edgeBits (k % 2) order[k] order[(k + 1) % order.length])
    (left k : Nat) (inside : k < order.length) (used : List Nat)
    (length : order.length = k + 1 + left)
    (unused : ∀ edge ∈ order.drop (k + 1), place survivors edge ∉ used) :
    Continues (searchOf request survivors) (place survivors order[0])
      (place survivors order[k]) (k % 2) used ((order.drop (k + 1)).map (place survivors)) := by
  have sided : k % 2 < 2 := Nat.mod_lt _ (by decide)
  induction left generalizing k used with
  | zero =>
    have ends : order.drop (k + 1) = [] := List.drop_eq_nil_of_le (by omega)
    have home : (k + 1) % order.length = 0 := by rw [length, Nat.add_zero, Nat.mod_self]
    have link := links k inside (Nat.mod_lt _ nonempty)
    simp only [home] at link
    rw [ends]
    exact linked_of_complementary request survivors (k % 2) _ _ sided
      (included (List.getElem_mem inside)) (included (List.getElem_mem nonempty)) link
  | succ left ih =>
    have further : k + 1 < order.length := by omega
    have link := links k inside (Nat.mod_lt _ nonempty)
    simp only [Nat.mod_eq_of_lt further] at link
    rw [List.drop_eq_getElem_cons further] at unused ⊢
    rw [List.map_cons]
    refine ⟨linked_of_complementary request survivors (k % 2) _ _ sided
      (included (List.getElem_mem inside)) (included (List.getElem_mem further)) link,
      unused _ List.mem_cons_self, ?_⟩
    rw [flip_parity]
    refine ih (k + 1) further _ (by omega) ?_ (Nat.mod_lt _ (by decide))
    intro edge member
    rw [List.mem_cons, not_or]
    refine ⟨?_, unused edge (List.mem_cons_of_mem _ member)⟩
    intro same
    have repeated := place_injective survivors edge _ (included (List.mem_of_mem_drop member)) same
    rw [repeated] at member
    have tail_unique := unique.sublist (List.drop_sublist (k + 1) order)
    rw [List.drop_eq_getElem_cons further] at tail_unique
    exact (List.nodup_cons.mp tail_unique).1 member

/-- Sorting the edges of an ascending proof in any order gives the proof back. -/
theorem sorted_of_perm (order : List Nat) (proof : Proof) (perm : order.Perm proof.nonces)
    (ascending : proof.nonces.Pairwise (· < ·)) : Proof.sorted order = proof := by
  have sorted : order.insertionSort (· ≤ ·) = proof.nonces := by
    apply ((List.perm_insertionSort (· ≤ ·) order).trans perm).eq_of_pairwise
    · intro e f _ _ low high
      exact Nat.le_antisymm low high
    · exact List.pairwise_insertionSort (· ≤ ·) order
    · exact ascending.imp Nat.le_of_lt
  rw [Proof.sorted, sorted]

/-- Every accepted proof gives a start from which the search is not exhausted. -/
theorem cycle_not_exhausted (request : GraphParams) (survivors : List Nat) (proof : Proof)
    (inRange : 1 ≤ request.edgeBits ∧ request.edgeBits ≤ 32) (positive : 1 ≤ request.cycleLength)
    (included : proof.nonces ⊆ survivors)
    (accepted : verifyCycle request.keys request.edgeBits request.cycleLength proof = .ok ()) :
    ∃ start < survivors.length, ¬ Exhausted (searchOf request survivors) start
      (request.cycleLength - 1) start 0 [start] [start] := by
  have cycle := (verify_cycle_iff _ _ _ _ inRange positive).mp accepted
  obtain ⟨order, perm, links⟩ := cycle.ordering
  have length : order.length = request.cycleLength := perm.length_eq.trans cycle.length
  have nonempty : 0 < order.length := by omega
  have unique : order.Nodup := perm.nodup_iff.mpr (cycle.ascending.imp Nat.ne_of_lt)
  have inside : order ⊆ survivors := fun edge member => included (perm.mem_iff.mp member)
  have whole : order[0] :: order.drop 1 = order := (List.drop_eq_getElem_cons nonempty).symm
  refine ⟨place survivors order[0], (place_getElem survivors _ (inside
    (List.getElem_mem nonempty))).1, fun exhausted => ?_⟩
  have tail_unused : ∀ edge ∈ order.drop 1,
      place survivors edge ∉ [place survivors order[0]] := by
    intro edge member same
    have repeated := place_injective survivors edge _ (inside (List.mem_of_mem_drop member))
      (List.mem_singleton.mp same)
    rw [repeated] at member
    rw [← whole] at unique
    exact (List.nodup_cons.mp unique).1 member
  have continues := order_continues request survivors order inside unique nonempty links
    (request.cycleLength - 1) 0 nonempty [place survivors order[0]] (by omega) tail_unused
  apply exhausted ((order.drop 1).map (place survivors)) (by simp [length]) continues
  have places : ([place survivors order[0]] ++ (order.drop 1).map (place survivors)).map
      (survivors.getD · 0) = order := by
    have all : [place survivors order[0]] ++ (order.drop 1).map (place survivors) =
        order.map (place survivors) := by
      conv_rhs => rw [← whole]
      rfl
    have back : ∀ edge ∈ order, ((survivors.getD · 0) ∘ place survivors) edge = id edge :=
      fun edge member => (place_getElem survivors edge (inside member)).2
    rw [all, List.map_map, List.map_congr_left back, List.map_id]
  rw [show (searchOf request survivors).survivors = survivors from rfl, places,
    sorted_of_perm order proof perm cycle.ascending]
  exact accepted

/-- A cycle search returns accepted proofs only. -/
theorem find_cycle_sound (request : GraphParams) (survivors : List Nat) (proof : Proof)
    (found : findCycle request survivors = .ok (some proof)) :
    verifyCycle request.keys request.edgeBits request.cycleLength proof = .ok () := by
  unfold findCycle at found
  split at found
  · cases found
  · simp only at found
    split at found
    · cases found
    · rename_i result last ended
      cases found
      obtain ⟨start, _, before, searched⟩ := first_found_some _ _ _ _ _ ended
      exact dfs_sound _ _ _ _ _ _ _ _ searched

/-- A search without a result leaves no accepted proof among the survivors. -/
theorem find_cycle_complete (request : GraphParams) (survivors : List Nat) (proof : Proof)
    (inRange : 1 ≤ request.edgeBits ∧ request.edgeBits ≤ 32) (positive : 1 ≤ request.cycleLength)
    (included : proof.nonces ⊆ survivors)
    (ended : findCycle request survivors = .ok none) :
    verifyCycle request.keys request.edgeBits request.cycleLength proof ≠ .ok () := by
  intro accepted
  unfold findCycle at ended
  split at ended
  · rename_i few
    have cycle := (verify_cycle_iff _ _ _ _ inRange positive).mp accepted
    have unique : proof.nonces.Nodup := cycle.ascending.imp Nat.ne_of_lt
    have most := (List.subperm_of_subset unique included).length_le
    have length := cycle.length
    omega
  · simp only at ended
    split at ended
    · cases ended
    · rename_i result last searched
      cases ended
      obtain ⟨start, bound, hidden⟩ :=
        cycle_not_exhausted request survivors proof inRange positive included accepted
      obtain ⟨_, exhausted⟩ := first_found_none _ (fun _ => True)
        (fun start => Exhausted (searchOf request survivors) start (request.cycleLength - 1) start
          0 [start] [start]) _ (by
            intro start _ before after _ from_start
            exact ⟨trivial, (dfs_complete _ _ _ _ _ _ _ from_start).2.2⟩) _ _ trivial searched
      exact hidden (exhausted start (List.mem_range.mpr bound))

/-- The only failure of the search is its branch limit. -/
theorem find_cycle_error (request : GraphParams) (survivors : List Nat) (error : SolveError)
    (failed : findCycle request survivors = .error error) : ∃ reason, error = .searchLimit reason := by
  unfold findCycle at failed
  split at failed
  · cases failed
  · simp only at failed
    split at failed
    · cases failed
      exact ⟨_, rfl⟩
    · cases failed

end CuckatooMiner.CpuSearch
