import Mathlib
import CuckatooMiner.SearchLimits

/-!
# The two searches agree

Both searches return only proofs made of survivors, and for cycles of forty-two edges a search
that ends without an error has found a proof exactly when some forty-two survivors form one.
Two searches within their limits thus have the same answer.

The limits are numbers of the graph: the arcs of the two-step search, and the branches that each
search counts until its first proof or until its end. A search fails exactly if one of its numbers
is too large, except that the two-step search also refuses more survivors than it can number.
-/

namespace CuckatooMiner.SearchAgreement

open SipHash Verify Solver FirstFound Peel

/-- A sorted proof holds the nonces it was made of. -/
theorem mem_sorted (nonces : List Nat) (edge : Nat) :
    edge ∈ (Proof.sorted nonces).nonces ↔ edge ∈ nonces :=
  (List.perm_insertionSort (· ≤ ·) nonces).mem_iff

/-- The survivor at a valid index is a survivor. -/
theorem survivor_mem (survivors : List Nat) (i : Nat) (bound : i < survivors.length) :
    survivors.getD i 0 ∈ survivors := by
  rw [List.getD_eq_getElem _ _ bound]
  exact List.getElem_mem bound

section Generic

open CpuSearch

variable (request : GraphParams) (survivors : List Nat)

/-- Searching on from a survivor keeps the path within the survivors. -/
theorem dfs_within (start remaining current side : Nat) (state last : SearchState)
    (result : Option Proof) (here : ∀ i ∈ state.path, i < survivors.length)
    (ended : dfs (searchOf request survivors) start remaining current side state =
      .ok (result, last)) :
    (∀ i ∈ last.path, i < survivors.length) ∧ ∀ proof ∈ result, proof.nonces ⊆ survivors := by
  induction remaining generalizing current side state last result with
  | zero =>
    simp only [dfs, Except.ok.injEq, Prod.mk.injEq] at ended
    obtain ⟨rfl, rfl⟩ := ended
    refine ⟨here, ?_⟩
    intro proof closed
    rw [Option.mem_def, closePath] at closed
    simp only at closed
    split at closed
    · cases closed
    · split at closed
      · cases closed
        intro edge member
        obtain ⟨i, i_member, rfl⟩ := List.mem_map.mp ((mem_sorted _ _).mp member)
        exact survivor_mem survivors i (here i i_member)
      · cases closed
  | succ remaining ih =>
    rw [dfs] at ended
    refine first_found_keeps _ (fun state : SearchState => ∀ i ∈ state.path, i < survivors.length)
      (fun proof => proof.nonces ⊆ survivors) _ ?_ state last result here ended
    intro next candidate before after outcome within tried
    have inside := ((mem_candidates request survivors _ _ next).mp candidate).1
    unfold tryNext at tried
    simp only at tried
    split at tried
    · cases tried
    split at tried
    · cases tried
      exact ⟨within, by simp⟩
    · have entered : ∀ i ∈ before.path ++ [next], i < survivors.length := by
        intro i member
        rcases List.mem_append.mp member with old | new
        · exact within i old
        · exact List.mem_singleton.mp new ▸ inside
      split at tried
      · cases tried
      · rename_i descended
        cases tried
        exact ih _ _ _ _ _ entered descended
      · rename_i inner descended
        cases tried
        obtain ⟨left, _⟩ := ih _ _ _ _ _ entered descended
        exact ⟨fun i member => left i (List.dropLast_subset _ member), by simp⟩

/-- The generic search returns proofs made of survivors. -/
theorem find_cycle_within (found : Option Proof) (enough : request.cycleLength ≤ survivors.length)
    (ended : findCycle request survivors = .ok found) :
    ∀ proof ∈ found, proof.nonces ⊆ survivors := by
  unfold findCycle at ended
  rw [if_neg (Nat.not_lt.mpr enough)] at ended
  simp only at ended
  split at ended
  · cases ended
  · rename_i result last searched
    cases ended
    refine (first_found_keeps _ (fun _ => True) (fun proof => proof.nonces ⊆ survivors) _ ?_ _ last
      found trivial searched).2
    intro start member before after outcome _ from_start
    have start_within : ∀ i ∈ [start], i < survivors.length :=
      fun i only => List.mem_singleton.mp only ▸ List.mem_range.mp member
    exact ⟨trivial, (dfs_within request survivors start _ start 0 _ after outcome start_within
      from_start).2⟩

end Generic

section TwoStep

open D2 RadixOrder

variable (request : GraphParams) (survivors : List Nat)

/-- The arcs lead from survivors over survivors to survivors. -/
def ArcsWithin (arcs : List Arc) : Prop :=
  ∀ arc ∈ arcs, arc.dst < survivors.length ∧ arc.mid < survivors.length

/-- The indices in a range of the radix order are indices of survivors. -/
theorem range_of_inside (side wanted i : Nat)
    (member : i ∈ rangeOf (radixOrder (sideKeys request survivors side))
      (sideKeys request survivors side) wanted) : i < survivors.length := by
  have in_order : i ∈ radixOrder (sideKeys request survivors side) :=
    List.mem_of_mem_drop (List.mem_of_mem_take member)
  simpa [sideKeys] using (radix_order_perm (sideKeys request survivors side)).mem_iff.mp in_order

/-- Adding the arcs of a survivor keeps the arcs between survivors. -/
theorem add_source_within (before after : List Nat × List Arc) (src : Nat)
    (here : ArcsWithin survivors before.2)
    (added : addSource (radixOrder (sideKeys request survivors 0)) (sideKeys request survivors 0)
      (radixOrder (sideKeys request survivors 1)) (sideKeys request survivors 1) before src =
        .ok after) : ArcsWithin survivors after.2 := by
  unfold addSource at added
  split at added
  · cases added
  rename_i arcs pushed
  cases added
  refine Outcome.fold_keeps _ (ArcsWithin survivors) _ ?_ _ _ here pushed
  intro mid mid_member arcs_before arcs_after within over_mid
  have mid_inside := range_of_inside request survivors 0 _ mid mid_member
  unfold pushMid at over_mid
  split at over_mid
  · cases over_mid
    exact within
  refine Outcome.fold_keeps _ (ArcsWithin survivors) _ ?_ _ _ within over_mid
  intro dst dst_member one_before one_after one_within one
  have dst_inside := range_of_inside request survivors 1 _ dst dst_member
  unfold pushArc at one
  split at one
  · cases one
    exact one_within
  split at one
  · cases one
  cases one
  intro arc member
  rcases List.mem_append.mp member with old | new
  · exact one_within arc old
  · obtain rfl := List.mem_singleton.mp new
    exact ⟨dst_inside, mid_inside⟩

/-- The path and the middle edges hold indices of survivors. -/
structure StateWithin (state : DfsState) : Prop where
  path : ∀ i ∈ state.path, i < survivors.length
  mids : ∀ i ∈ state.mids, i < survivors.length

/-- Writing a valid index keeps the indices valid. -/
theorem set_within (entries : List Nat) (place value bound : Nat)
    (here : ∀ i ∈ entries, i < bound) (inside : value < bound) :
    ∀ i ∈ entries.set place value, i < bound := by
  intro i member
  rcases List.mem_or_eq_of_mem_set member with old | rfl
  · exact here i old
  · exact inside

/-- A list of valid indices read at any place gives a valid index. -/
theorem getD_within (entries : List Nat) (place bound : Nat) (here : ∀ i ∈ entries, i < bound)
    (nonempty : 0 < bound) : entries.getD place 0 < bound := by
  rcases Nat.lt_or_ge place entries.length with inside | outside
  · rw [List.getD_eq_getElem _ _ inside]
    exact here _ (List.getElem_mem inside)
  · rw [List.getD_eq_default _ _ outside]
    exact nonempty

/-- The nonces along a path are survivors. -/
theorem path_nonces_within (context : DfsContext) (same : context.survivors = survivors)
    (nonempty : 0 < survivors.length) (state : DfsState) (here : StateWithin survivors state)
    (edge : Nat) (member : edge ∈ pathNonces context state) : edge ∈ survivors := by
  obtain ⟨i, _, pair⟩ := List.mem_flatMap.mp member
  rw [same] at pair
  rcases List.mem_cons.mp pair with rfl | second
  · exact survivor_mem survivors _ (getD_within _ _ _ here.path nonempty)
  · obtain rfl := List.mem_singleton.mp second
    exact survivor_mem survivors _ (getD_within _ _ _ here.mids nonempty)

/-- Searching on from a survivor keeps within the survivors. -/
theorem dfs_d2_within (context : DfsContext) (same : context.survivors = survivors)
    (nonempty : 0 < survivors.length)
    (ends : ∀ arc ∈ context.arcs, arc.dst < survivors.length ∧ arc.mid < survivors.length)
    (levels current depth : Nat) (state last : DfsState) (result : Option Proof)
    (here : StateWithin survivors state)
    (ended : dfs context levels current depth state = .ok (result, last)) :
    StateWithin survivors last ∧ ∀ proof ∈ result, proof.nonces ⊆ survivors := by
  induction levels generalizing current depth state last result with
  | zero =>
    cases ended
    exact ⟨here, by simp⟩
  | succ levels ih =>
    rw [dfs] at ended
    refine first_found_keeps _ (StateWithin survivors) (fun proof => proof.nonces ⊆ survivors) _
      ?_ state last result here ended
    intro arc member before after outcome within followed
    obtain ⟨dst_inside, mid_inside⟩ :=
      ends arc (List.mem_of_mem_drop (List.mem_of_mem_take member))
    unfold followArc at followed
    simp only at followed
    split at followed
    · cases followed
    have mids_set := set_within before.mids depth arc.mid _ within.mids mid_inside
    split at followed
    · split at followed
      · split at followed
        · simp only [Except.ok.injEq, Prod.mk.injEq] at followed
          obtain ⟨rfl, rfl⟩ := followed
          have closed : StateWithin survivors { before with
              branches := before.branches + 1, mids := before.mids.set depth arc.mid } :=
            ⟨within.path, mids_set⟩
          refine ⟨closed, ?_⟩
          intro proof found edge edge_member
          rw [Option.mem_def, Option.some.injEq] at found
          rw [← found, mem_sorted] at edge_member
          exact path_nonces_within survivors context same nonempty _ closed edge edge_member
        · cases followed
          exact ⟨⟨within.path, mids_set⟩, by simp⟩
      · cases followed
        exact ⟨⟨within.path, within.mids⟩, by simp⟩
    · split at followed
      · cases followed
        exact ⟨⟨within.path, within.mids⟩, by simp⟩
      · have entered : StateWithin survivors ⟨before.path.set (depth + 1) arc.dst,
            before.mids.set depth arc.mid, before.onPath.set arc.dst true, before.branches + 1⟩ :=
          ⟨set_within _ _ _ _ within.path dst_inside, mids_set⟩
        split at followed
        · cases followed
        · rename_i descended
          cases followed
          exact ih _ _ _ _ _ entered descended
        · rename_i descended
          cases followed
          obtain ⟨left, _⟩ := ih _ _ _ _ _ entered descended
          exact ⟨⟨left.path, left.mids⟩, by simp⟩

/-- The two-step search returns proofs made of survivors. -/
theorem find_cycle_d2_within (length : request.cycleLength = 42) (found : Option Proof)
    (enough : 42 ≤ survivors.length) (ended : findCycleD2 request survivors = .ok found) :
    ∀ proof ∈ found, proof.nonces ⊆ survivors := by
  unfold findCycleD2 at ended
  rw [if_neg (by omega), if_neg (by omega)] at ended
  split at ended
  · cases ended
  simp only at ended
  split at ended
  · cases ended
  rename_i offsets arcs built
  split at ended
  · cases ended
  rename_i result last searched
  cases ended
  have within : ArcsWithin survivors arcs :=
    Outcome.fold_keeps _ (fun state => ArcsWithin survivors state.2) _
      (fun src _ before after here added =>
        add_source_within request survivors before after src here added)
      ([], []) (offsets, arcs) (by simp [ArcsWithin]) built
  have zeros : ∀ i ∈ List.replicate 21 0, i < survivors.length := by
    intro i member
    rw [List.eq_of_mem_replicate member]
    omega
  refine (first_found_keeps _ (StateWithin survivors) (fun proof => proof.nonces ⊆ survivors) _ ?_
    _ last found ⟨zeros, zeros⟩ searched).2
  intro start member before after outcome here from_start
  unfold searchFrom at from_start
  split at from_start
  · cases from_start
    exact ⟨here, by simp⟩
  have entered : StateWithin survivors { before with
      path := before.path.set 0 start, onPath := before.onPath.set start true } :=
    ⟨set_within _ _ _ _ here.path (List.mem_range.mp member), here.mids⟩
  split at from_start
  · cases from_start
  · rename_i descended
    cases from_start
    exact dfs_d2_within survivors ⟨request, survivors, _, arcs, start⟩ rfl (by omega) within _ _ _ _ _ _
      entered descended
  · rename_i descended
    cases from_start
    obtain ⟨left, _⟩ := dfs_d2_within survivors ⟨request, survivors, _, arcs, start⟩ rfl
      (by omega) within _ _ _ _ _ _ entered descended
    exact ⟨⟨left.path, left.mids⟩, by simp⟩

end TwoStep

/-! ## Agreement -/

/-- Some forty-two survivors, sorted, satisfy the verifier. Their order among the survivors does
    not matter, and neither does a survivor that is listed twice. -/
def HoldsProof (request : GraphParams) (survivors : List Nat) : Prop :=
  ∃ part ⊆ survivors.toFinset, part.card = 42 ∧
    verifyCycle request.keys request.edgeBits 42 ⟨part.sort⟩ = .ok ()

variable (request : GraphParams) (survivors : List Nat)

/-- An accepted proof of survivors is one of their subsets. -/
theorem holds_proof_of_accepted (inRange : 1 ≤ request.edgeBits ∧ request.edgeBits ≤ 32)
    (proof : Proof) (included : proof.nonces ⊆ survivors)
    (accepted : verifyCycle request.keys request.edgeBits 42 proof = .ok ()) :
    HoldsProof request survivors := by
  have cycle := (verify_cycle_iff _ _ _ _ inRange (by decide)).mp accepted
  have unique : proof.nonces.Nodup := cycle.ascending.imp Nat.ne_of_lt
  refine ⟨proof.nonces.toFinset, ?_, ?_, ?_⟩
  · intro edge member
    exact List.mem_toFinset.mpr (included (List.mem_toFinset.mp member))
  · rw [List.toFinset_card_of_nodup unique, cycle.length]
  · have sorted : proof.nonces.toFinset.sort = proof.nonces :=
      List.toFinset_sort (· ≤ ·) unique |>.mpr (cycle.ascending.imp Nat.le_of_lt)
    rw [sorted]
    exact accepted

/-- A search that is sound and complete has found a proof exactly when there is one. -/
theorem found_iff (inRange : 1 ≤ request.edgeBits ∧ request.edgeBits ≤ 32) (found : Option Proof)
    (sound : ∀ proof ∈ found,
      verifyCycle request.keys request.edgeBits 42 proof = .ok () ∧ proof.nonces ⊆ survivors)
    (complete : found = none → ∀ proof : Proof, proof.nonces ⊆ survivors →
      verifyCycle request.keys request.edgeBits 42 proof ≠ .ok ()) :
    found.isSome ↔ HoldsProof request survivors := by
  constructor
  · intro some_found
    obtain ⟨proof, rfl⟩ := Option.isSome_iff_exists.mp some_found
    obtain ⟨accepted, included⟩ := sound proof rfl
    exact holds_proof_of_accepted request survivors inRange proof included accepted
  · rintro ⟨part, inside, _, accepted⟩
    by_contra nothing
    refine complete (by simpa using nothing) ⟨part.sort⟩ ?_ accepted
    intro edge member
    exact List.mem_toFinset.mp (inside ((Finset.mem_sort _).mp member))

/-- The generic search has found a proof exactly when there is one. -/
theorem find_cycle_exact (inRange : 1 ≤ request.edgeBits ∧ request.edgeBits ≤ 32)
    (length : request.cycleLength = 42) (found : Option Proof)
    (ended : CpuSearch.findCycle request survivors = .ok found) :
    (∀ proof ∈ found, verifyCycle request.keys request.edgeBits 42 proof = .ok () ∧
        proof.nonces ⊆ survivors) ∧
      (found.isSome ↔ HoldsProof request survivors) := by
  have sound : ∀ proof ∈ found, verifyCycle request.keys request.edgeBits 42 proof = .ok () ∧
      proof.nonces ⊆ survivors := by
    intro proof member
    obtain rfl : found = some proof := member
    have accepted := CpuSearch.find_cycle_sound request survivors proof ended
    rw [length] at accepted
    refine ⟨accepted, ?_⟩
    rcases Nat.lt_or_ge survivors.length request.cycleLength with few | enough
    · rw [CpuSearch.findCycle, if_pos few] at ended
      cases ended
    · exact find_cycle_within request survivors _ enough ended proof rfl
  refine ⟨sound, found_iff request survivors inRange found sound ?_⟩
  rintro rfl proof included
  rw [← length]
  exact CpuSearch.find_cycle_complete request survivors proof inRange (by omega) included ended

/-- The two-step search has found a proof exactly when there is one. -/
theorem find_cycle_d2_exact (inRange : 1 ≤ request.edgeBits ∧ request.edgeBits ≤ 32)
    (length : request.cycleLength = 42) (found : Option Proof)
    (ended : D2.findCycleD2 request survivors = .ok found) :
    (∀ proof ∈ found, verifyCycle request.keys request.edgeBits 42 proof = .ok () ∧
        proof.nonces ⊆ survivors) ∧
      (found.isSome ↔ HoldsProof request survivors) := by
  have sound : ∀ proof ∈ found, verifyCycle request.keys request.edgeBits 42 proof = .ok () ∧
      proof.nonces ⊆ survivors := by
    intro proof member
    obtain rfl : found = some proof := member
    have accepted := D2.find_cycle_d2_sound request survivors proof ended
    rw [length] at accepted
    refine ⟨accepted, ?_⟩
    rcases Nat.lt_or_ge survivors.length request.cycleLength with few | enough
    · rw [D2.findCycleD2, if_pos few] at ended
      cases ended
    · exact find_cycle_d2_within request survivors length _ (by omega) ended proof rfl
  refine ⟨sound, found_iff request survivors inRange found sound ?_⟩
  rintro rfl proof included
  rw [← length]
  exact D2.find_cycle_d2_complete request survivors proof inRange (by omega) included ended

/-- The arcs and the branches of the two-step search are within their limits. Both are counted
    without a limit, the branches up to the first proof or the end of the search. -/
def TwoStepFits : Prop :=
  D2.countArcs request survivors ≤ D2.arcCap ∧
    D2.countBranches request survivors ≤ D2.maxSearchBranches

/-- The branches of the generic search are within their limit. They are counted without a limit,
    up to the first proof or the end of the search. -/
def GenericFits : Prop :=
  CpuSearch.countBranches request survivors ≤ CpuSearch.maxSearchBranches

/-- The errors of the two-step search: too many survivors to number them, too many arcs, or too
    many branches. -/
def TwoStepFails (error : SolveError) : Prop :=
  42 ≤ survivors.length ∧
    (u32Max < survivors.length ∧ error = .unsupported "D2 survivor index exceeds u32" ∨
      survivors.length ≤ u32Max ∧ D2.arcCap < D2.countArcs request survivors ∧
        error = .searchLimit D2.arcLimit ∨
      survivors.length ≤ u32Max ∧ D2.countArcs request survivors ≤ D2.arcCap ∧
        D2.maxSearchBranches < D2.countBranches request survivors ∧
        error = .searchLimit D2.branchLimit)

/-- The error of the generic search: too many branches. Fewer survivors than a cycle has edges
    are not searched at all. -/
def GenericFails (error : SolveError) : Prop :=
  request.cycleLength ≤ survivors.length ∧
    CpuSearch.maxSearchBranches < CpuSearch.countBranches request survivors ∧
    error = .searchLimit CpuSearch.branchLimit

/-- The two-step search fails exactly at its limits and for too many survivors. -/
theorem find_cycle_d2_error_iff (inRange : request.edgeBits ≤ 32) (length : request.cycleLength = 42)
    (error : SolveError) :
    D2.findCycleD2 request survivors = .error error ↔ TwoStepFails request survivors error := by
  unfold TwoStepFails
  rcases Nat.lt_or_ge survivors.length 42 with short | enough
  · rw [D2.findCycleD2, if_pos (by omega)]
    constructor
    · intro failed
      cases failed
    · exact fun failed => absurd failed.1 (by omega)
  rcases Nat.lt_or_ge u32Max survivors.length with many | few
  · rw [D2.findCycleD2, if_neg (by omega), if_neg (by omega), if_pos many, Except.error.injEq]
    constructor
    · exact fun failed => ⟨enough, Or.inl ⟨many, failed.symm⟩⟩
    · rintro ⟨_, ⟨_, raised⟩ | ⟨few, _⟩ | ⟨few, _⟩⟩
      · exact raised.symm
      · omega
      · omega
  rw [D2.find_cycle_d2_eq request survivors inRange length enough few]
  rcases Nat.lt_or_ge D2.arcCap (D2.countArcs request survivors) with arcs | room
  · rw [if_neg (by omega), Except.error.injEq, eq_comm]
    constructor
    · exact fun failed => ⟨enough, Or.inr (Or.inl ⟨few, arcs, failed⟩)⟩
    · rintro ⟨_, ⟨many, _⟩ | ⟨_, _, raised⟩ | ⟨_, room, _⟩⟩
      · omega
      · exact raised
      · omega
  rw [if_pos room]
  rcases Nat.lt_or_ge D2.maxSearchBranches (D2.countBranches request survivors) with branches | within
  · rw [if_neg (by omega), Except.error.injEq, eq_comm]
    constructor
    · exact fun failed => ⟨enough, Or.inr (Or.inr ⟨few, room, branches, failed⟩)⟩
    · rintro ⟨_, ⟨many, _⟩ | ⟨_, arcs, _⟩ | ⟨_, _, _, raised⟩⟩
      · omega
      · omega
      · exact raised
  · rw [if_pos within]
    constructor
    · intro failed
      cases failed
    · rintro ⟨_, ⟨many, _⟩ | ⟨_, arcs, _⟩ | ⟨_, _, branches, _⟩⟩ <;> omega

/-- The generic search fails exactly at its limit. -/
theorem find_cycle_error_iff (error : SolveError) :
    CpuSearch.findCycle request survivors = .error error ↔ GenericFails request survivors error := by
  unfold GenericFails
  rcases Nat.lt_or_ge survivors.length request.cycleLength with short | enough
  · rw [CpuSearch.findCycle, if_pos short]
    constructor
    · intro failed
      cases failed
    · exact fun failed => absurd failed.1 (by omega)
  rw [CpuSearch.find_cycle_eq request survivors enough]
  rcases Nat.lt_or_ge CpuSearch.maxSearchBranches (CpuSearch.countBranches request survivors) with
    branches | within
  · rw [if_neg (by omega), Except.error.injEq, eq_comm]
    exact ⟨fun failed => ⟨enough, branches, failed⟩, fun failed => failed.2.2⟩
  · rw [if_pos within]
    constructor
    · intro failed
      cases failed
    · rintro ⟨_, branches, _⟩
      omega

/-- For cycles of forty-two edges, two searches within their limits return, with a proof exactly
    when some forty-two survivors form one, so that they agree. The limits are on numbers of the
    graph and the order of the survivors, and each error is one of them: a search that returns is
    right whatever the other does, and what it returns verifies and is made of survivors. -/
theorem searches_agree (request : GraphParams) (survivors : List Nat)
    (inRange : 1 ≤ request.edgeBits ∧ request.edgeBits ≤ 32)
    (length : request.cycleLength = 42) :
    (survivors.length ≤ u32Max → TwoStepFits request survivors → GenericFits request survivors →
      ∃ twoStep generic, D2.findCycleD2 request survivors = .ok twoStep ∧
        CpuSearch.findCycle request survivors = .ok generic ∧
        (twoStep.isSome ↔ generic.isSome) ∧ (generic.isSome ↔ HoldsProof request survivors)) ∧
    (∀ found, D2.findCycleD2 request survivors = .ok found ∨
        CpuSearch.findCycle request survivors = .ok found →
      (found.isSome ↔ HoldsProof request survivors) ∧
        ∀ proof ∈ found, verifyCycle request.keys request.edgeBits 42 proof = .ok () ∧
          proof.nonces ⊆ survivors) ∧
    (∀ error, D2.findCycleD2 request survivors = .error error ↔
      TwoStepFails request survivors error) ∧
    (∀ error, CpuSearch.findCycle request survivors = .error error ↔
      GenericFails request survivors error) := by
  have two_error := find_cycle_d2_error_iff request survivors inRange.2 length
  have one_error := find_cycle_error_iff request survivors
  refine ⟨?_, ?_, two_error, one_error⟩
  · rintro few ⟨arcs, branches⟩ within
    unfold GenericFits at within
    cases two_ended : D2.findCycleD2 request survivors with
    | error error =>
      rcases ((two_error error).mp two_ended).2 with ⟨many, _⟩ | ⟨_, many, _⟩ | ⟨_, _, many, _⟩ <;>
        omega
    | ok twoStep =>
      cases one_ended : CpuSearch.findCycle request survivors with
      | error error =>
        have many := ((one_error error).mp one_ended).2.1
        omega
      | ok generic =>
        have two := (find_cycle_d2_exact request survivors inRange length twoStep two_ended).2
        have one := (find_cycle_exact request survivors inRange length generic one_ended).2
        exact ⟨twoStep, generic, rfl, rfl, two.trans one.symm, one⟩
  · rintro found (ended | ended)
    · have exact_two := find_cycle_d2_exact request survivors inRange length found ended
      exact ⟨exact_two.2, exact_two.1⟩
    · have exact_one := find_cycle_exact request survivors inRange length found ended
      exact ⟨exact_one.2, exact_one.1⟩

/-- A proof of an eighteen-bit graph, in descending order and with an edge that is not
    part of it. -/
def c18Survivors : List Nat :=
  [261863, 254432, 251293, 244331, 236195, 230161, 224188, 214343, 197668, 194849, 190168,
    189572, 180942, 177336, 176219, 166165, 164039, 161096, 160279, 157224, 153214, 153192,
    138459, 132671, 127348, 106157, 105565, 104555, 104092, 89639, 82234, 78930, 51560, 46697,
    38657, 34282, 33645, 33503, 30319, 15134, 14021, 10314, 0]

/-- The graph that they are of. -/
def c18Request : GraphParams :=
  ⟨⟨0x2b193c644b14a706#64, 0xe0bcdc5cf81aaaac#64, 0x860fda5329feb951#64, 0x1e1236603e41704b#64⟩,
    18, 42, 128⟩

/-- Their arcs, with the indices sorted by insertion. -/
theorem c18_adjacency :
    D2.adjacency c18Request c18Survivors =
      (List.range 43).foldl (D2.addSourceFreely
        ((List.range 43).insertionSort fun i j =>
          (sideKeys c18Request c18Survivors 0).getD i 0 ≤ (sideKeys c18Request c18Survivors 0).getD j 0)
        (sideKeys c18Request c18Survivors 0)
        ((List.range 43).insertionSort fun i j =>
          (sideKeys c18Request c18Survivors 1).getD i 0 ≤ (sideKeys c18Request c18Survivors 1).getD j 0)
        (sideKeys c18Request c18Survivors 1)) ([], []) := by
  have sorted (side : Nat) (small : ∀ key ∈ sideKeys c18Request c18Survivors side, key < 2 ^ 32)
      (unique : (sideKeys c18Request c18Survivors side).Nodup) :=
    RadixOrder.radix_order_of_unique _ small unique
  have left := sorted 0 (by decide +kernel) (by decide +kernel)
  have right := sorted 1 (by decide +kernel) (by decide +kernel)
  rw [D2.adjacency, left, right]
  rfl

/-- Both searches find the proof that these survivors hold. -/
theorem c18_searches_agree :
    HoldsProof c18Request c18Survivors ∧
      ∃ twoStep generic, D2.findCycleD2 c18Request c18Survivors = .ok (some twoStep) ∧
        CpuSearch.findCycle c18Request c18Survivors = .ok (some generic) := by
  have holds : HoldsProof c18Request c18Survivors :=
    holds_proof_of_accepted _ _ (by decide) ⟨(c18Survivors.reverse).drop 1⟩ (by decide +kernel)
      (by decide +kernel)
  have arcs : D2.countArcs c18Request c18Survivors ≤ D2.arcCap := by decide +kernel
  have branches : D2.countBranches c18Request c18Survivors ≤ D2.maxSearchBranches := by
    rw [D2.countBranches, D2.findCycleD2Freely, c18_adjacency]
    decide +kernel
  have generic_branches : GenericFits c18Request c18Survivors := by
    unfold GenericFits
    decide +kernel
  obtain ⟨two, one, two_ended, one_ended, same, exact⟩ :=
    (searches_agree c18Request c18Survivors (by decide) rfl).1 (by decide) ⟨arcs, branches⟩
      generic_branches
  have one_found := exact.mpr holds
  obtain ⟨generic, rfl⟩ := Option.isSome_iff_exists.mp one_found
  obtain ⟨twoStep, rfl⟩ := Option.isSome_iff_exists.mp (same.mpr one_found)
  exact ⟨holds, twoStep, generic, two_ended, one_ended⟩

end CuckatooMiner.SearchAgreement
