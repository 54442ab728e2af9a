import Mathlib
import CuckatooMiner.Peel
import CuckatooMiner.CpuTrim

/-!
# What the groups of survivors support

The groups of the survivors and their mates form a well-formed incidence: mates come
in pairs, and an edge in a group supports exactly the edges in its mate, since the
two are at complementary nodes. A worklist over these tables leaves the greatest set of
survivors that has mates on both sides.

Trimming keeps the core of the graph, and the survivors of a trim are few enough to be
numbered in graphs of up to thirty-one edge bits, as are their groups.
-/

namespace CuckatooMiner.PeelCore

open SipHash Verify Solver Pruning TwoCore CpuTrim Peel

/-- Within a range of groups with ascending nodes, the mate of a group is the group
    of the range at the complementary node. -/
theorem mate_of_iff (groupKeys : List Nat) (start finish group mate : Nat)
    (inside : start ≤ group ∧ group < finish)
    (ascending : ∀ a b, start ≤ a → a < b → b < finish →
      groupKeys.getD a 0 < groupKeys.getD b 0) :
    mateOf groupKeys start finish group = some mate ↔
      (start ≤ mate ∧ mate < finish) ∧
        groupKeys.getD mate 0 = groupKeys.getD group 0 ^^^ 1 := by
  unfold mateOf
  simp only [Option.filter_eq_some_iff, beq_iff_eq]
  rcases Nat.mod_two_eq_zero_or_one (groupKeys.getD group 0) with even | odd
  · rw [if_pos even]
    constructor
    · rintro ⟨neighbor, key⟩
      split at neighbor
      · cases neighbor
        exact ⟨by omega, key⟩
      · cases neighbor
    · rintro ⟨bounds, key⟩
      refine ⟨?_, key⟩
      rw [complement_even _ even] at key
      -- An earlier group has a smaller node, and a later one leaves no room between.
      rcases Nat.lt_trichotomy mate group with before | rfl | after
      · have smaller := ascending mate group bounds.1 before inside.2
        omega
      · omega
      · rcases Nat.lt_or_ge (group + 1) mate with beyond | next
        · have first := ascending group (group + 1) inside.1 (by omega) (by omega)
          have second := ascending (group + 1) mate (by omega) beyond bounds.2
          omega
        · obtain rfl : mate = group + 1 := by omega
          rw [if_pos bounds.2]
  · rw [if_neg (by omega)]
    constructor
    · rintro ⟨neighbor, key⟩
      split at neighbor
      · cases neighbor
      · split at neighbor
        · cases neighbor
          exact ⟨by omega, key⟩
        · cases neighbor
    · rintro ⟨bounds, key⟩
      refine ⟨?_, key⟩
      rw [complement_odd _ odd] at key
      rcases Nat.lt_trichotomy mate group with before | rfl | after
      · rcases Nat.lt_or_ge (mate + 1) group with beyond | next
        · have first := ascending mate (mate + 1) bounds.1 (by omega) (by omega)
          have second := ascending (mate + 1) group (by omega) beyond inside.2
          omega
        · obtain rfl : group = mate + 1 := by omega
          rw [if_neg (by omega), Nat.add_sub_cancel, if_pos bounds.1]
      · omega
      · have larger := ascending group mate inside.1 after bounds.2
        omega

/-! ## The groups of the survivors -/

/-- The node of a group. -/
def groupKey (groups : Groups) (group : Nat) : Nat :=
  (groups.zero.keys ++ groups.one.keys).getD group 0

/-- Entries of an ascending list ascend. -/
theorem getD_ascending (entries : List Nat) (ascending : entries.Pairwise (· < ·)) (a b : Nat)
    (before : a < b) (inside : b < entries.length) : entries.getD a 0 < entries.getD b 0 := by
  rw [List.getD_eq_getElem _ _ (by omega), List.getD_eq_getElem _ _ inside]
  exact List.pairwise_iff_getElem.mp ascending a b (by omega) inside before

/-- On both sides the nodes of the groups ascend. -/
structure Ascending (groups : Groups) : Prop where
  zero : groups.zero.keys.Pairwise (· < ·)
  one : groups.one.keys.Pairwise (· < ·)

/-- The node of a group of side zero. -/
theorem group_key_zero (groups : Groups) (group : Nat) (low : group < groups.middle) :
    groupKey groups group = groups.zero.keys.getD group 0 := by
  rw [groupKey, List.getD_append _ _ _ _ low]

/-- The node of a group of side one. -/
theorem group_key_one (groups : Groups) (group : Nat) (high : groups.middle ≤ group) :
    groupKey groups group = groups.one.keys.getD (group - groups.middle) 0 := by
  rw [groupKey, List.getD_append_right _ _ _ _ high]
  rfl

/-- The mate of a group is the group of the same side at the complementary node. -/
theorem incidence_mate (groups : Groups) (ascending : Ascending groups) (group mate : Nat)
    (bound : group < groups.count) :
    groups.incidence.mate group = some mate ↔
      (mate < groups.count ∧ (mate < groups.middle ↔ group < groups.middle)) ∧
        groupKey groups mate = groupKey groups group ^^^ 1 := by
  have half : groups.middle ≤ groups.count := Nat.le_add_right _ _
  have sum : groups.count = groups.middle + groups.one.keys.length := rfl
  simp only [Groups.incidence, Groups.mateGroups]
  rcases Nat.lt_or_ge group groups.middle with low | high
  · rw [List.getD_append _ _ _ _ (by simpa using low), List.getD_eq_getElem _ _ (by simpa using low),
      List.getElem_map, List.getElem_range, mate_of_iff _ _ _ _ _ ⟨Nat.zero_le _, low⟩]
    · refine and_congr ?_ Iff.rfl
      omega
    · intro a b _ before inside
      have ordered := getD_ascending _ ascending.zero a b before inside
      rwa [← group_key_zero groups a (by omega), ← group_key_zero groups b inside] at ordered
  · have place : group - groups.middle < groups.count - groups.middle := by omega
    rw [List.getD_append_right _ _ _ _ (by simpa using high), List.getD_eq_getElem _ _ (by simpa
      using place), List.getElem_map, List.getElem_range']
    simp only [List.length_map, List.length_range, Nat.one_mul, Nat.add_sub_cancel' high]
    rw [mate_of_iff _ _ _ _ _ ⟨high, bound⟩]
    · refine and_congr ?_ Iff.rfl
      omega
    · intro a b low_bound before inside
      have ordered := getD_ascending _ ascending.one (a - groups.middle) (b - groups.middle)
        (by omega) (by omega)
      rwa [← group_key_one groups a low_bound, ← group_key_one groups b (by omega)] at ordered

variable (request : GraphParams) (survivors : List Nat)

/-- The tables of side zero describe its runs. -/
theorem grouped_zero : Grouped (sideKeys request survivors 0) 0
    (runsOf (sideKeys request survivors 0)) (groupSurvivors request survivors).zero :=
  group_side_grouped _ _

/-- The tables of side one describe its runs, numbered after those of side zero. -/
theorem grouped_one : Grouped (sideKeys request survivors 1)
    (groupSurvivors request survivors).middle
    (runsOf (sideKeys request survivors 1)) (groupSurvivors request survivors).one :=
  group_side_grouped _ _

/-- The nodes of the survivors fit 32 bits. -/
theorem side_keys_small (inRange : request.edgeBits ≤ 32) (side : Nat) :
    ∀ key ∈ sideKeys request survivors side, key < 2 ^ 32 := by
  intro key member
  obtain ⟨edge, _, rfl⟩ := List.mem_map.mp member
  exact Nat.lt_of_lt_of_le (endpoint_lt request.keys request.edgeBits edge side inRange)
    (Nat.pow_le_pow_right (by decide) inRange)

/-- The node of a survivor on a side. -/
theorem side_keys_getD (side i : Nat) (bound : i < survivors.length) :
    (sideKeys request survivors side).getD i 0 =
      endpoint request.keys request.edgeBits (survivors.getD i 0) side := by
  rw [sideKeys, List.getD_eq_getElem _ _ (by simpa using bound), List.getElem_map,
    List.getD_eq_getElem _ _ bound]

/-- The nodes of the survivors' groups ascend on both sides. -/
theorem survivors_ascending (inRange : request.edgeBits ≤ 32) :
    Ascending (groupSurvivors request survivors) := by
  constructor
  · rw [(grouped_zero request survivors).nodes]
    exact run_keys_ascending _ (side_keys_small request survivors inRange 0)
  · rw [(grouped_one request survivors).nodes]
    exact run_keys_ascending _ (side_keys_small request survivors inRange 1)

/-- A survivor is in one group of each side, both at its nodes. -/
theorem survivor_groups (i : Nat) (bound : i < survivors.length) :
    ∃ low high, (groupSurvivors request survivors).incidence.groups i = [low, high] ∧
      low < (groupSurvivors request survivors).middle ∧
      (groupSurvivors request survivors).middle ≤ high ∧
      high < (groupSurvivors request survivors).count ∧
      groupKey (groupSurvivors request survivors) low =
        endpoint request.keys request.edgeBits (survivors.getD i 0) 0 ∧
      groupKey (groupSurvivors request survivors) high =
        endpoint request.keys request.edgeBits (survivors.getD i 0) 1 := by
  obtain ⟨low, low_bound, low_group, low_key⟩ :=
    (grouped_zero request survivors).edge_group i (by simpa [sideKeys] using bound)
  obtain ⟨high, high_bound, high_group, high_key⟩ :=
    (grouped_one request survivors).edge_group i (by simpa [sideKeys] using bound)
  rw [Nat.zero_add] at low_group
  rw [side_keys_getD request survivors _ i bound] at low_key high_key
  refine ⟨low, (groupSurvivors request survivors).middle + high, ?_, low_bound,
    Nat.le_add_right _ _, Nat.add_lt_add_left high_bound _, ?_, ?_⟩
  · simp only [Groups.incidence, low_group, high_group]
  · rw [group_key_zero _ _ low_bound, low_key]
  · rw [group_key_one _ _ (Nat.le_add_right _ _), Nat.add_sub_cancel_left, high_key]

/-- The members of a group of side zero are its run. -/
theorem members_zero (group : Nat) (low : group < (groupSurvivors request survivors).middle) :
    ∃ inside : group < (runsOf (sideKeys request survivors 0)).length,
      (groupSurvivors request survivors).members group =
        (runsOf (sideKeys request survivors 0))[group] := by
  have grouped := grouped_zero request survivors
  have inside : group < (runsOf (sideKeys request survivors 0)).length := by
    have count := congrArg List.length grouped.nodes
    rw [List.length_map] at count
    exact count ▸ low
  refine ⟨inside, ?_⟩
  rw [Groups.members, if_neg (Nat.not_le.mpr low), if_neg (Nat.not_le.mpr low)]
  exact grouped.slice group inside

/-- The members of a group of side one are its run. -/
theorem members_one (group : Nat) (high : (groupSurvivors request survivors).middle ≤ group)
    (bound : group < (groupSurvivors request survivors).count) :
    ∃ inside : group - (groupSurvivors request survivors).middle <
        (runsOf (sideKeys request survivors 1)).length,
      (groupSurvivors request survivors).members group =
        (runsOf (sideKeys request survivors 1))[group -
          (groupSurvivors request survivors).middle] := by
  have grouped := grouped_one request survivors
  have sum : (groupSurvivors request survivors).count =
    (groupSurvivors request survivors).middle +
      (groupSurvivors request survivors).one.keys.length := rfl
  have count := congrArg List.length grouped.nodes
  rw [List.length_map] at count
  have inside : group - (groupSurvivors request survivors).middle <
      (runsOf (sideKeys request survivors 1)).length := by omega
  refine ⟨inside, ?_⟩
  rw [Groups.members, if_pos high, if_pos high]
  exact grouped.slice _ inside

/-- The members of a group are the survivors that carry its number, each once. -/
theorem members_spec (group : Nat)
    (bound : group < (groupSurvivors request survivors).count) :
    ((groupSurvivors request survivors).members group).Nodup ∧
      ∀ i, i ∈ (groupSurvivors request survivors).members group ↔ i < survivors.length ∧
        group ∈ (groupSurvivors request survivors).incidence.groups i := by
  have run_nodup : ∀ keys : List Nat, ∀ run ∈ runsOf keys, run.Nodup := fun keys run member =>
    (List.nodup_flatten.mp (runs_nodup keys)).1 run member
  rcases Nat.lt_or_ge group (groupSurvivors request survivors).middle with low | high
  · obtain ⟨inside, members⟩ := members_zero request survivors group low
    rw [members]
    refine ⟨run_nodup _ _ (List.getElem_mem inside), fun i => ?_⟩
    rw [(grouped_zero request survivors).mem_run group i inside, sideKeys, List.length_map,
      Nat.zero_add]
    refine and_congr_right fun i_bound => ?_
    obtain ⟨own, other, groups, own_low, other_high, _⟩ :=
      survivor_groups request survivors i i_bound
    rw [groups]
    simp only [Groups.incidence, List.cons.injEq, and_true] at groups
    rw [groups.1, List.mem_cons, List.mem_singleton]
    omega
  · obtain ⟨inside, members⟩ := members_one request survivors group high bound
    rw [members]
    refine ⟨run_nodup _ _ (List.getElem_mem inside), fun i => ?_⟩
    rw [(grouped_one request survivors).mem_run _ i inside, sideKeys, List.length_map]
    refine and_congr_right fun i_bound => ?_
    obtain ⟨other, own, groups, other_low, own_high, _⟩ :=
      survivor_groups request survivors i i_bound
    rw [groups]
    simp only [Groups.incidence, List.cons.injEq, and_true] at groups
    rw [groups.2, List.mem_cons, List.mem_singleton]
    omega

/-- The groups of the survivors are a well-formed incidence. -/
theorem survivors_wellFormed (inRange : request.edgeBits ≤ 32) :
    Elimination.WellFormed (groupSurvivors request survivors).incidence survivors.length
      (groupSurvivors request survivors).count := by
  have ascending := survivors_ascending request survivors inRange
  refine ⟨fun group bound i => (members_spec request survivors group bound).2 i, ?_, ?_, ?_⟩
  · intro i bound group member
    obtain ⟨low, high, groups, low_bound, middle, high_bound, _⟩ :=
      survivor_groups request survivors i bound
    rw [groups, List.mem_cons, List.mem_singleton] at member
    omega
  · intro i bound
    obtain ⟨low, high, groups, low_bound, middle, _⟩ :=
      survivor_groups request survivors i bound
    rw [groups, List.nodup_cons, List.mem_singleton]
    exact ⟨by omega, List.nodup_singleton high⟩
  · intro group bound mate mated
    obtain ⟨⟨mate_bound, same_side⟩, key⟩ :=
      (incidence_mate _ ascending group mate bound).mp mated
    exact ⟨mate_bound, (incidence_mate _ ascending mate group mate_bound).mpr
      ⟨⟨bound, same_side.symm⟩, (complement_comm _ _).mp key⟩⟩

/-- The counts of the groups are their numbers of members. -/
theorem live_count_spec :
    (groupSurvivors request survivors).liveCount.length =
        (groupSurvivors request survivors).count ∧
      ∀ group < (groupSurvivors request survivors).count,
        (groupSurvivors request survivors).liveCount.getD group 0 =
          (Elimination.living (groupSurvivors request survivors).incidence survivors.length
            (List.replicate survivors.length true) group).card := by
  have zero := grouped_zero request survivors
  have one := grouped_one request survivors
  have zero_count := congrArg List.length zero.nodes
  have one_count := congrArg List.length one.nodes
  rw [List.length_map] at zero_count one_count
  have sum : (groupSurvivors request survivors).count =
    (groupSurvivors request survivors).middle +
      (groupSurvivors request survivors).one.keys.length := rfl
  have middle : (groupSurvivors request survivors).middle =
    (groupSurvivors request survivors).zero.keys.length := rfl
  have sizes : (groupSurvivors request survivors).liveCount =
      (runsOf (sideKeys request survivors 0)).map List.length ++
        (runsOf (sideKeys request survivors 1)).map List.length := by
    rw [Groups.liveCount, zero.sizes, one.sizes]
  constructor
  · rw [sizes, List.length_append, List.length_map, List.length_map]
    omega
  · intro group bound
    have counted : (groupSurvivors request survivors).liveCount.getD group 0 =
        ((groupSurvivors request survivors).members group).length := by
      rw [sizes]
      rcases Nat.lt_or_ge group (groupSurvivors request survivors).middle with low | high
      · obtain ⟨inside, members⟩ := members_zero request survivors group low
        rw [List.getD_append _ _ _ _ (by simpa using inside), members,
          List.getD_eq_getElem _ _ (by simpa using inside), List.getElem_map]
      · obtain ⟨inside, members⟩ := members_one request survivors group high bound
        have skipped : ((runsOf (sideKeys request survivors 0)).map List.length).length =
            (groupSurvivors request survivors).middle := by
          rw [List.length_map]
          omega
        rw [List.getD_append_right _ _ _ _ (by omega), members, skipped,
          List.getD_eq_getElem _ _ (by simpa using inside), List.getElem_map]
    obtain ⟨unique, members⟩ := members_spec request survivors group bound
    rw [counted, ← List.toFinset_card_of_nodup unique]
    congr 1
    apply Finset.ext
    intro i
    rw [List.mem_toFinset, members, Elimination.living, Finset.mem_filter, Finset.mem_range]
    refine and_congr_right fun i_bound => ?_
    rw [List.getD_eq_getElem _ _ (by simpa using i_bound), List.getElem_replicate]
    simp

/-- One survivor supports another in a group exactly when it is complementary to it
    on the group's side. -/
theorem support_iff (inRange : request.edgeBits ≤ 32) (i j : Nat) (i_bound : i < survivors.length)
    (j_bound : j < survivors.length) (side : Nat) (sided : side < 2) :
    (∃ mate, (groupSurvivors request survivors).incidence.mate
        (((groupSurvivors request survivors).incidence.groups i).getD side 0) = some mate ∧
      mate ∈ (groupSurvivors request survivors).incidence.groups j) ↔
      Complementary request.keys request.edgeBits side (survivors.getD i 0)
        (survivors.getD j 0) := by
  have ascending := survivors_ascending request survivors inRange
  obtain ⟨i_low, i_high, i_groups, i_low_bound, i_middle, i_count, i_low_key, i_high_key⟩ :=
    survivor_groups request survivors i i_bound
  obtain ⟨j_low, j_high, j_groups, j_low_bound, j_middle, j_count, j_low_key, j_high_key⟩ :=
    survivor_groups request survivors j j_bound
  rw [i_groups, j_groups, Complementary]
  interval_cases side
  · simp only [List.getD_cons_zero, incidence_mate _ ascending i_low _ (by omega), List.mem_cons,
      List.not_mem_nil, or_false]
    constructor
    · rintro ⟨mate, ⟨⟨_, same_side⟩, key⟩, rfl | rfl⟩
      · rw [← i_low_key, ← j_low_key, key]
      · omega
    · intro mated
      refine ⟨j_low, ⟨⟨by omega, by omega⟩, ?_⟩, Or.inl rfl⟩
      rw [i_low_key, j_low_key, mated]
  · simp only [List.getD_cons_succ, List.getD_cons_zero,
      incidence_mate _ ascending i_high _ i_count, List.mem_cons, List.not_mem_nil, or_false]
    constructor
    · rintro ⟨mate, ⟨⟨_, same_side⟩, key⟩, rfl | rfl⟩
      · omega
      · rw [← i_high_key, ← j_high_key, key]
    · intro mated
      refine ⟨j_high, ⟨⟨j_count, by omega⟩, ?_⟩, Or.inr rfl⟩
      rw [i_high_key, j_high_key, mated]

/-- A set of survivors is supported exactly when it has a complementary survivor for
    each of its members on both sides. -/
theorem supported_iff (inRange : request.edgeBits ≤ 32) (set : Nat → Prop) :
    Elimination.Supported (groupSurvivors request survivors).incidence survivors.length set ↔
      ∀ i, set i → i < survivors.length ∧ ∀ side < 2, ∃ j, set j ∧
        Complementary request.keys request.edgeBits side (survivors.getD i 0)
          (survivors.getD j 0) := by
  constructor
  · intro supported i chosen
    obtain ⟨bound, mates⟩ := supported i chosen
    refine ⟨bound, fun side sided => ?_⟩
    obtain ⟨low, high, groups, _⟩ := survivor_groups request survivors i bound
    have member : ((groupSurvivors request survivors).incidence.groups i).getD side 0 ∈
        (groupSurvivors request survivors).incidence.groups i := by
      rw [groups]
      interval_cases side <;> simp
    obtain ⟨mate, mated, j, j_chosen, j_member⟩ := mates _ member
    exact ⟨j, j_chosen, (support_iff request survivors inRange i j bound
      (supported j j_chosen).1 side sided).mp ⟨mate, mated, j_member⟩⟩
  · intro mates i chosen
    obtain ⟨bound, both⟩ := mates i chosen
    refine ⟨bound, fun group member => ?_⟩
    obtain ⟨low, high, groups, _⟩ := survivor_groups request survivors i bound
    have on_side : ∃ side < 2,
        ((groupSurvivors request survivors).incidence.groups i).getD side 0 = group := by
      rw [groups] at member ⊢
      rcases List.mem_cons.mp member with rfl | later
      · exact ⟨0, by decide, rfl⟩
      · obtain rfl := List.mem_singleton.mp later
        exact ⟨1, by decide, rfl⟩
    obtain ⟨side, sided, same⟩ := on_side
    obtain ⟨j, j_chosen, mated⟩ := both side sided
    obtain ⟨mate, mate_group, j_member⟩ :=
      (support_iff request survivors inRange i j bound (mates j j_chosen).1 side sided).mpr mated
    exact ⟨mate, same ▸ mate_group, j, j_chosen, j_member⟩

/-! ## The core -/

/-- A side has at most as many groups as nodes. -/
theorem side_group_count (side : Nat) (inRange : request.edgeBits ≤ 32) :
    (runsOf (sideKeys request survivors side)).length ≤ 2 ^ request.edgeBits := by
  have ascending := run_keys_ascending _ (side_keys_small request survivors inRange side)
  have nodes : (runsOf (sideKeys request survivors side)).map
      (runKey (sideKeys request survivors side)) ⊆ List.range (2 ^ request.edgeBits) := by
    intro node member
    obtain ⟨run, run_member, rfl⟩ := List.mem_map.mp member
    obtain ⟨i, i_member⟩ := List.exists_mem_of_ne_nil run (List.ne_nil_of_mem_splitBy run_member)
    have bound : i < survivors.length := by
      simpa [sideKeys] using (mem_runs_flatten _ i).mp (List.mem_flatten.mpr ⟨run, run_member, i_member⟩)
    rw [← run_key_eq _ run run_member i i_member, side_keys_getD request survivors side i bound,
      List.mem_range]
    exact endpoint_lt request.keys request.edgeBits _ side inRange
  have unique := ascending.imp Nat.ne_of_lt
  simpa using (List.subperm_of_subset unique nodes).length_le

/-- Group numbers fit 32 bits in graphs of up to thirty-one edge bits. -/
theorem group_count_fits (inRange : request.edgeBits ≤ 31) :
    (groupSurvivors request survivors).count ≤ u32Max + 1 := by
  have zero_count := congrArg List.length (grouped_zero request survivors).nodes
  have one_count := congrArg List.length (grouped_one request survivors).nodes
  rw [List.length_map] at zero_count one_count
  have zero_bound := side_group_count request survivors 0 (by omega)
  have one_bound := side_group_count request survivors 1 (by omega)
  have power : 2 ^ request.edgeBits ≤ 2 ^ 31 := Nat.pow_le_pow_right (by decide) inRange
  unfold Groups.count u32Max
  omega

/-- The survivors of a trim have the core of the graph, and in graphs of up to
    thirty-one edge bits there are never too many of them. -/
theorem trimmed_core (maxEdgeBits : Nat) (cancel : Nat → Bool) (inRange : request.edgeBits ≤ 32)
    (trimmed : trimSurvivorsCancellable request maxEdgeBits cancel = .ok (some survivors)) :
    survivors.Pairwise (· < ·) ∧
      core (Complementary request.keys request.edgeBits) (edgeSet survivors) =
        twoCore request.keys request.edgeBits ∧
      (request.edgeBits ≤ 31 → survivors.length ≤ u32Max) := by
  obtain ⟨ascending, rounds, _, members⟩ :=
    trim_survivors_spec request maxEdgeBits cancel survivors inRange trimmed
  have same : edgeSet survivors =
      trimRounds (Complementary request.keys request.edgeBits) (graph request.edgeBits) rounds :=
    Set.ext members
  refine ⟨ascending, ?_, ?_⟩
  · rw [same, core_trim_rounds, twoCore]
  · intro small
    have edges : survivors ⊆ List.range (2 ^ request.edgeBits) := by
      intro edge member
      have inside : edge ∈ graph request.edgeBits :=
        trim_rounds_subset rounds ((members edge).mp member)
      exact List.mem_range.mpr inside
    have count := (List.subperm_of_subset (ascending.imp Nat.ne_of_lt) edges).length_le
    have power : 2 ^ request.edgeBits ≤ 2 ^ 31 := Nat.pow_le_pow_right (by decide) small
    rw [List.length_range] at count
    unfold u32Max
    omega

end CuckatooMiner.PeelCore
