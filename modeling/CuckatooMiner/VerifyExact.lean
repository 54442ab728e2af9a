import CuckatooMiner.Verify

/-!
# What the verifier accepts

A proof is accepted exactly when its nonces are strictly ascending edges of the
graph, each with one complementary mate per side inside the proof, and all of
them lie on one cycle whose links alternate sides. The specification speaks of
nonces and endpoints only; the verifier's table of indices, its marks and its
walk occur in the proofs, not in the statement.

Odd sizes, branching node pairs and unions of smaller cycles are refused as
consequences of the same equivalence.
-/

namespace CuckatooMiner.Verify

open SipHash AlternatingWalk

/-- Two edges are complementary on a side when their nodes there are complements. -/
def Complementary (keys : SipKeys) (edgeBits side e f : Nat) : Prop :=
  endpoint keys edgeBits f side = endpoint keys edgeBits e side ^^^ 1

/-- The nonces of one alternating cycle of the given length. Other edges of the graph may meet
    its nodes; only those of the list count. -/
structure IsCycle (keys : SipKeys) (edgeBits cycleLength : Nat) (nonces : List Nat) : Prop where
  length : nonces.length = cycleLength
  ascending : nonces.Pairwise (· < ·)
  inGraph : ∀ e ∈ nonces, e < 2 ^ edgeBits
  mates : ∀ e ∈ nonces, ∀ side < 2,
    ∃! f, f ∈ nonces ∧ f ≠ e ∧ Complementary keys edgeBits side e f
  ordering : ∃ order : List Nat, order.Perm nonces ∧
    ∀ k, (inside : k < order.length) → (wrapped : (k + 1) % order.length < order.length) →
      Complementary keys edgeBits (k % 2) order[k] order[(k + 1) % order.length]

variable {keys : SipKeys} {edgeBits : Nat} {nonces : List Nat}

/-- Complementary edges differ. -/
theorem complementary_ne {side e f : Nat} (mated : Complementary keys edgeBits side e f) :
    f ≠ e := by
  rintro rfl
  exact complement_ne _ mated.symm

/-- Being complementary does not depend on the order of the edges. -/
theorem complementary_comm {side e f : Nat} (mated : Complementary keys edgeBits side e f) :
    Complementary keys edgeBits side f e :=
  (complement_comm _ _).mp mated

/-- The endpoint table of a proof holds its edges' endpoints. -/
theorem node_at_endpoints (i side : Nat) (bound : i < nonces.length) (sided : side < 2) :
    nodeAt (nonces.map (endpointPair keys edgeBits)) i side =
      endpoint keys edgeBits nonces[i] side := by
  simpa [nodeAt, bound] using endpoint_pair_get keys edgeBits nonces[i] side sided

/-- A table mate is a complementary edge at another index of the proof. -/
theorem unique_mate_spec {side i m : Nat} (bound : i < nonces.length) (sided : side < 2)
    (mate : UniqueMate (nonces.map (endpointPair keys edgeBits)) side i m) :
    ∃ inside : m < nonces.length, m ≠ i ∧
      Complementary keys edgeBits side nonces[i] nonces[m] := by
  obtain ⟨inside, different, node⟩ := (mate m).mpr rfl
  rw [List.length_map] at inside
  rw [node_at_endpoints m side inside sided, node_at_endpoints i side bound sided] at node
  exact ⟨inside, different, node⟩

/-- The table has a unique mate at an index exactly when the proof has a unique
    complementary edge to the nonce there. Distinct nonces make indices and
    nonces interchangeable. -/
theorem unique_mate_iff (unique : nonces.Nodup) {side i : Nat} (bound : i < nonces.length)
    (sided : side < 2) :
    (∃ m, UniqueMate (nonces.map (endpointPair keys edgeBits)) side i m) ↔
      ∃! f, f ∈ nonces ∧ f ≠ nonces[i] ∧ Complementary keys edgeBits side nonces[i] f := by
  constructor
  · rintro ⟨m, mate⟩
    obtain ⟨inside, _, node⟩ := unique_mate_spec bound sided mate
    refine ⟨nonces[m], ⟨List.getElem_mem inside, complementary_ne node, node⟩, ?_⟩
    rintro f ⟨member, different, complement⟩
    obtain ⟨j, j_bound, rfl⟩ := List.getElem_of_mem member
    have same : j = m := (mate j).mp ⟨by simpa using j_bound,
      fun equal => different (by simp [equal]), by
        rw [node_at_endpoints j side j_bound sided, node_at_endpoints i side bound sided]
        exact complement⟩
    simp [same]
  · rintro ⟨f, ⟨member, _, complement⟩, only⟩
    obtain ⟨m, inside, rfl⟩ := List.getElem_of_mem member
    refine ⟨m, fun j => ?_⟩
    rw [List.length_map]
    constructor
    · rintro ⟨j_bound, different, node⟩
      rw [node_at_endpoints j side j_bound sided, node_at_endpoints i side bound sided] at node
      exact (List.Nodup.getElem_inj_iff unique).mp
        (only nonces[j] ⟨List.getElem_mem j_bound, complementary_ne node, node⟩)
    · rintro rfl
      refine ⟨inside, fun equal => complementary_ne complement (by simp [equal]), ?_⟩
      rw [node_at_endpoints j side inside sided, node_at_endpoints i side bound sided]
      exact complement

/-- Unique mates pair the indices of a proof on both sides: the mate's own mate
    is the edge one came from. -/
theorem unique_mates_pair {mate : Nat → Nat → Nat}
    (mates : ∀ side < 2, ∀ i < nonces.length,
      UniqueMate (nonces.map (endpointPair keys edgeBits)) side i (mate side i)) :
    Pairing mate (List.range nonces.length) := by
  refine ⟨?_, ?_, ?_⟩
  · intro side sided i member
    rw [List.mem_range] at member ⊢
    exact (unique_mate_spec member sided (mates side sided i member)).1
  · intro side sided i member
    rw [List.mem_range] at member
    obtain ⟨inside, different, node⟩ := unique_mate_spec member sided (mates side sided i member)
    refine ((mates side sided _ inside i).mp ⟨by simpa using member, different.symm, ?_⟩).symm
    rw [node_at_endpoints i side member sided, node_at_endpoints _ side inside sided]
    exact complementary_comm node
  · intro side sided i member
    rw [List.mem_range] at member
    exact (unique_mate_spec member sided (mates side sided i member)).2.1

/-- A cyclic order of the indices under unique mates is a cyclic ordering of
    the nonces by complementary links, and conversely. -/
theorem cyclic_order_iff (unique : nonces.Nodup) {mate : Nat → Nat → Nat}
    (mates : ∀ side < 2, ∀ i < nonces.length,
      UniqueMate (nonces.map (endpointPair keys edgeBits)) side i (mate side i)) :
    (∃ order : List Nat, order.Perm (List.range nonces.length) ∧ CyclicOrder mate order) ↔
      ∃ order : List Nat, order.Perm nonces ∧
        ∀ k, (inside : k < order.length) → (wrapped : (k + 1) % order.length < order.length) →
          Complementary keys edgeBits (k % 2) order[k] order[(k + 1) % order.length] := by
  have sided : ∀ k, k % 2 < 2 := fun k => Nat.mod_lt k (by decide)
  constructor
  · rintro ⟨order, perm, cyclic⟩
    have values : (List.range nonces.length).map (fun i => nonces.getD i 0) = nonces := by
      apply List.ext_getElem
      · simp
      · intro i _ bound
        simp [bound]
    have whole := perm.map fun i => nonces.getD i 0
    rw [values] at whole
    refine ⟨order.map fun i => nonces.getD i 0, whole, ?_⟩
    intro k inside wrapped
    simp only [List.length_map] at inside wrapped
    simp only [List.getElem_map, List.length_map]
    have bound : order[k] < nonces.length :=
      List.mem_range.mp (perm.mem_iff.mp (List.getElem_mem inside))
    obtain ⟨next_bound, _, node⟩ :=
      unique_mate_spec bound (sided k) (mates _ (sided k) _ bound)
    have next := cyclic k inside wrapped
    simp only [next] at next_bound node
    simpa [bound, next_bound] using node
  · rintro ⟨order, perm, linked⟩
    have member : ∀ k, (inside : k < order.length) → order[k] ∈ nonces :=
      fun k inside => perm.mem_iff.mp (List.getElem_mem inside)
    have indices : nonces.map (fun e => nonces.idxOf e) = List.range nonces.length := by
      apply List.ext_getElem
      · simp
      · intro i bound _
        simpa using List.Nodup.idxOf_getElem unique i (by simpa using bound)
    have whole := perm.map fun e => nonces.idxOf e
    rw [indices] at whole
    refine ⟨order.map fun e => nonces.idxOf e, whole, ?_⟩
    intro k inside wrapped
    simp only [List.length_map] at inside wrapped
    simp only [List.getElem_map, List.length_map]
    have here : nonces.idxOf order[k] < nonces.length :=
      List.idxOf_lt_length_of_mem (member k inside)
    have there : nonces.idxOf order[(k + 1) % order.length] < nonces.length :=
      List.idxOf_lt_length_of_mem (member _ wrapped)
    have link := linked k inside wrapped
    refine ((mates _ (sided k) _ here _).mp ⟨by simpa using there, ?_, ?_⟩).symm
    · intro same
      have equal := congrArg (fun i => nonces.getD i 0) same
      simp only [List.getD_eq_getElem _ _ here, List.getD_eq_getElem _ _ there,
        List.getElem_idxOf] at equal
      exact complementary_ne link equal
    · rw [node_at_endpoints _ _ there (sided k), node_at_endpoints _ _ here (sided k)]
      simpa only [List.getElem_idxOf, Complementary] using link

/-- The walk over a complete mate table ends in acceptance exactly when its
    steps are fresh, lead home and are even in number. -/
theorem walk_accepts (table : List (Pair Nat)) (count : Nat) (positive : 0 < count)
    (pairing : Pairing (fun side i => nodeAt table i side) (List.range count)) :
    (∃ visited index side,
      walk table count (List.replicate count false) 0 0 = .ok (visited, index, side) ∧
        ¬ (index ≠ 0 ∨ side ≠ 0 ∨ visited.any (fun seen => !seen) = true)) ↔
      ∃ order : List Nat, order.Perm (List.range count) ∧
        CyclicOrder (fun side i => nodeAt table i side) order := by
  have begins : (0 : Nat) ∈ List.range count := List.mem_range.mpr positive
  have inside : ∀ k, position (fun side i => nodeAt table i side) 0 k < count :=
    fun k => List.mem_range.mp (position_mem pairing begins k)
  have start : marks (fun side i => nodeAt table i side) count 0 = List.replicate count false := by
    apply List.ext_getElem <;> simp [marks]
  have run := walk_ok table count inside count 0
  simp only [start, position, Nat.zero_mod, Nat.zero_add] at run
  have criterion := walk_iff_cyclic_order pairing List.nodup_range begins
  simp only [List.length_range] at criterion
  rw [← criterion]
  constructor
  · rintro ⟨visited, index, side, walked, accepted⟩
    obtain ⟨fresh, same⟩ := (run _).mp walked
    obtain ⟨rfl, rfl, rfl⟩ : visited = _ ∧ index = _ ∧ side = _ := by simpa using same
    simp only [not_or, not_not] at accepted
    exact ⟨fun i bound => fresh i (Nat.zero_le i) bound, accepted.1, accepted.2.1⟩
  · rintro ⟨fresh, home, even⟩
    refine ⟨_, _, _, (run _).mpr ⟨fun i _ bound => fresh i bound, rfl⟩, ?_⟩
    have visits := walk_visits pairing begins (by simpa using fresh)
    have all_seen : (marks (fun side i => nodeAt table i side) count count).any
        (fun seen => !seen) = false := by
      rw [List.any_eq_false]
      intro seen member
      obtain ⟨x, x_inside, rfl⟩ := List.mem_map.mp member
      obtain ⟨j, j_inside, reached⟩ := List.mem_map.mp (visits.mem_iff.mpr x_inside)
      simp only [List.length_range] at j_inside
      simp only [Bool.not_eq_true, Bool.not_eq_false', List.any_eq_true, beq_iff_eq]
      exact ⟨j, j_inside, reached⟩
    simp [home, even, all_seen]

/-- A cycle's edges have a complete mate table, and its ordering is a cyclic
    order of that table's indices. -/
theorem cycle_table {cycleLength : Nat} (cycle : IsCycle keys edgeBits cycleLength nonces) :
    ∃ table, mateTable (nonces.map (endpointPair keys edgeBits))
        (List.range nonces.length) = .ok table ∧
      (∀ side < 2, ∀ i < nonces.length,
        UniqueMate (nonces.map (endpointPair keys edgeBits)) side i (nodeAt table i side)) ∧
      ∃ order : List Nat, order.Perm (List.range nonces.length) ∧
        CyclicOrder (fun side i => nodeAt table i side) order := by
  have unique : nonces.Nodup := cycle.ascending.imp Nat.ne_of_lt
  obtain ⟨table, built⟩ := mate_table_exists
    (nonces.map (endpointPair keys edgeBits)) (List.range nonces.length) (by
      intro i member side sided
      have bound := List.mem_range.mp member
      exact (unique_mate_iff unique bound sided).mpr
        (cycle.mates _ (List.getElem_mem bound) side sided))
  obtain ⟨_, mates⟩ := mate_table_lookup _ _ _ built
  exact ⟨table, built, mates, (cyclic_order_iff unique mates).mpr cycle.ordering⟩

/-- Acceptance is exactly one alternating cycle through all edges of the proof. -/
theorem verify_cycle_iff (keys : SipKeys) (edgeBits cycleLength : Nat) (proof : Proof)
    (inRange : 1 ≤ edgeBits ∧ edgeBits ≤ 32) (positive : 1 ≤ cycleLength) :
    verifyCycle keys edgeBits cycleLength proof = .ok () ↔
      IsCycle keys edgeBits cycleLength proof.nonces := by
  simp only [verifyCycle, if_neg (not_not.mpr inRange)]
  by_cases sized : proof.nonces.length = cycleLength
  swap
  · have refused : ¬ IsCycle keys edgeBits cycleLength proof.nonces :=
      fun cycle => sized cycle.length
    simp [sized, refused]
  subst sized
  simp only [ne_eq, not_true_eq_false, if_false, Outcome.bind_ok_iff]
  constructor
  · rintro ⟨⟨⟩, scanned, table, built, ⟨visited, index, side⟩, walked, accepted⟩
    obtain ⟨inGraph, ascending⟩ := (check_nonces_exact _ _).mp scanned
    have unique : proof.nonces.Nodup := ascending.imp Nat.ne_of_lt
    obtain ⟨_, mates⟩ := mate_table_lookup _ _ _ built
    have home : ¬ (index ≠ 0 ∨ side ≠ 0 ∨ visited.any (fun seen => !seen) = true) := by
      intro refused
      rw [if_pos refused] at accepted
      cases accepted
    refine ⟨rfl, ascending, inGraph, ?_, ?_⟩
    · intro e member side sided
      obtain ⟨i, bound, rfl⟩ := List.getElem_of_mem member
      exact (unique_mate_iff unique bound sided).mp ⟨_, mates side sided i bound⟩
    · exact (cyclic_order_iff unique mates).mp ((walk_accepts table _ positive
        (unique_mates_pair mates)).mp ⟨visited, index, side, walked, home⟩)
  · intro cycle
    obtain ⟨table, built, mates, cyclic⟩ := cycle_table cycle
    obtain ⟨visited, index, side, walked, home⟩ :=
      (walk_accepts table _ positive (unique_mates_pair mates)).mpr cyclic
    refine ⟨(), (check_nonces_exact _ _).mpr ⟨cycle.inGraph, cycle.ascending⟩, table, built,
      (visited, index, side), walked, ?_⟩
    rw [if_neg home]

/-- The edges of a cycle are even in number: links of the two sides alternate
    all the way around. -/
theorem cycle_even {cycleLength : Nat} (cycle : IsCycle keys edgeBits cycleLength nonces) :
    cycleLength % 2 = 0 := by
  obtain ⟨table, _, mates, order, perm, cyclic⟩ := cycle_table cycle
  have even := cyclic_order_even (unique_mates_pair mates) order perm List.nodup_range cyclic
  rwa [perm.length_eq, List.length_range, cycle.length] at even

/-- Some edge of the list is complementary to each of its edges on each side. An edge may have
    several such mates. -/
def SelfMated (keys : SipKeys) (edgeBits : Nat) (part : List Nat) : Prop :=
  ∀ e ∈ part, ∀ side < 2, ∃ f ∈ part, Complementary keys edgeBits side e f

/-- A nonempty part of a cycle that contains its own mates is all of it, so a
    smaller cycle cannot hide in an accepted proof. -/
theorem self_mated_part_is_whole {cycleLength : Nat}
    (cycle : IsCycle keys edgeBits cycleLength nonces) (part : List Nat)
    (included : part ⊆ nonces) (nonempty : part ≠ []) (mated : SelfMated keys edgeBits part) :
    nonces ⊆ part := by
  have unique : nonces.Nodup := cycle.ascending.imp Nat.ne_of_lt
  obtain ⟨table, _, mates, order, perm, cyclic⟩ := cycle_table cycle
  obtain ⟨first, first_member⟩ := List.exists_mem_of_ne_nil part nonempty
  obtain ⟨start, start_bound, rfl⟩ := List.getElem_of_mem (included first_member)
  have all := closed_part_is_whole (unique_mates_pair mates) List.nodup_range
    (List.mem_range.mpr start_bound) order perm cyclic (fun i => nonces.getD i 0 ∈ part)
    (by simpa [start_bound] using first_member) (by
      intro side sided i member here
      have bound := List.mem_range.mp member
      rw [List.getD_eq_getElem _ _ bound] at here
      obtain ⟨f, f_member, link⟩ := mated _ here side sided
      obtain ⟨inside, _, node⟩ := unique_mate_spec bound sided (mates side sided i bound)
      have same : nonces[nodeAt table i side] = f :=
        (cycle.mates _ (List.getElem_mem bound) side sided).unique
          ⟨List.getElem_mem inside, complementary_ne node, node⟩
          ⟨included f_member, complementary_ne link, link⟩
      rw [List.getD_eq_getElem _ _ inside, same]
      exact f_member)
  intro e member
  obtain ⟨i, bound, rfl⟩ := List.getElem_of_mem member
  simpa [bound] using all i (List.mem_range.mpr bound)

/-- The verifier accepts exactly the cycles. It refuses every odd length, every edge with two
    complementary mates on one side, and every proof in which a nonempty proper part contains
    its own mates, so every union of smaller cycles. Nothing is assumed of the graph: a node may
    have any number of edges. Whether a proof is difficult enough is not the verifier's matter. -/
theorem verify_cycle_exact (keys : SipKeys) (edgeBits cycleLength : Nat) (proof : Proof)
    (inRange : 1 ≤ edgeBits ∧ edgeBits ≤ 32) (positive : 1 ≤ cycleLength) :
    (verifyCycle keys edgeBits cycleLength proof = .ok () ↔
      IsCycle keys edgeBits cycleLength proof.nonces) ∧
    (cycleLength % 2 = 1 → verifyCycle keys edgeBits cycleLength proof ≠ .ok ()) ∧
    (∀ side < 2, ∀ e ∈ proof.nonces, ∀ f ∈ proof.nonces, ∀ g ∈ proof.nonces, f ≠ g →
      Complementary keys edgeBits side e f → Complementary keys edgeBits side e g →
      verifyCycle keys edgeBits cycleLength proof ≠ .ok ()) ∧
    (∀ part ⊆ proof.nonces, part ≠ [] → (∃ e ∈ proof.nonces, e ∉ part) →
      SelfMated keys edgeBits part →
      verifyCycle keys edgeBits cycleLength proof ≠ .ok ()) := by
  have exact := verify_cycle_iff keys edgeBits cycleLength proof inRange positive
  refine ⟨exact, ?_, ?_, ?_⟩
  · intro odd accepted
    have even := cycle_even (exact.mp accepted)
    omega
  · intro side sided e e_member f f_member g g_member different left right accepted
    exact different (((exact.mp accepted).mates e e_member side sided).unique
      ⟨f_member, complementary_ne left, left⟩ ⟨g_member, complementary_ne right, right⟩)
  · rintro part included nonempty ⟨e, member, absent⟩ mated accepted
    exact absent (self_mated_part_is_whole (exact.mp accepted) part included nonempty mated member)

/-- Four edges of a sixteen-edge graph form an accepted cycle. -/
theorem four_cycle_is_exact :
    IsCycle ⟨24#64, 0#64, 0#64, 0#64⟩ 4 4 [0, 6, 9, 15] :=
  (verify_cycle_exact ⟨24#64, 0#64, 0#64, 0#64⟩ 4 4 ⟨[0, 6, 9, 15]⟩
    (by decide) (by decide)).1.mp (by decide +kernel)

end CuckatooMiner.Verify
