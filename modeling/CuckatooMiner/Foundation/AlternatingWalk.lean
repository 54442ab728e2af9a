import Mathlib

/-!
# Walks that alternate between two pairings

Two involutions pair the members of a finite collection, one on each side. A
walk from a starting member applies the pairing of side zero, then of side one,
and so on. The walk visits the whole collection and comes home exactly when the
collection can be laid out on one cycle whose successive links alternate sides.

The collection is a list without repetitions; the parity of the step number
chooses the side. The argument is about the two pairings alone, whatever they
pair and wherever they come from.
-/

namespace CuckatooMiner.AlternatingWalk

universe u
variable {α : Type u}

/-- The member reached after a number of steps; step `k` follows side `k % 2`. -/
def position (mate : Nat → α → α) (start : α) : Nat → α
  | 0 => start
  | steps + 1 => mate (steps % 2) (position mate start steps)

/-- A list is a cyclic order when each entry's mate on the side of its index's
    parity is the next entry, the last being followed by the first. -/
def CyclicOrder (mate : Nat → α → α) (order : List α) : Prop :=
  ∀ k, (inside : k < order.length) → (wrapped : (k + 1) % order.length < order.length) →
    mate (k % 2) order[k] = order[(k + 1) % order.length]

/-- The two pairings on one collection: both stay inside it, undo themselves
    and move every member. -/
structure Pairing (mate : Nat → α → α) (members : List α) : Prop where
  closed : ∀ side < 2, ∀ x ∈ members, mate side x ∈ members
  involutive : ∀ side < 2, ∀ x ∈ members, mate side (mate side x) = x
  moves : ∀ side < 2, ∀ x ∈ members, mate side x ≠ x

variable {mate : Nat → α → α} {members : List α} {start : α}

/-- A walk never leaves the collection it started in. -/
theorem position_mem (pairing : Pairing mate members) (inside : start ∈ members) (steps : Nat) :
    position mate start steps ∈ members := by
  induction steps with
  | zero => exact inside
  | succ steps ih => exact pairing.closed _ (Nat.mod_lt _ (by decide)) _ ih

/-- Read a cyclic order at any step number, wrapping around its length. -/
def lap (order : List α) (nonempty : 0 < order.length) (k : Nat) : α :=
  have _wrapped : k % order.length < order.length := Nat.mod_lt k nonempty
  order[k % order.length]

/-- Laps repeat after the length of the order. -/
theorem lap_add_length (order : List α) (nonempty : 0 < order.length) (k : Nat) :
    lap order nonempty (k + order.length) = lap order nonempty k := by
  simp [lap]

/-- In an even cyclic order every step around the lap follows the pairing of
    its own parity: wrapping subtracts an even length and keeps the parity. -/
theorem lap_succ (order : List α) (nonempty : 0 < order.length)
    (cyclic : CyclicOrder mate order) (even : order.length % 2 = 0) (k : Nat) :
    mate (k % 2) (lap order nonempty k) = lap order nonempty (k + 1) := by
  have parity : k % order.length % 2 = k % 2 :=
    Nat.mod_mod_of_dvd k (Nat.dvd_of_mod_eq_zero even)
  have step := cyclic (k % order.length) (Nat.mod_lt _ nonempty) (Nat.mod_lt _ nonempty)
  rw [parity] at step
  simpa only [lap, Nat.mod_add_mod] using step

/-- Distinct residues of a lap without repetitions are distinct members. -/
theorem lap_injective (order : List α) (nonempty : 0 < order.length) (unique : order.Nodup)
    (i j : Nat) (same : lap order nonempty i = lap order nonempty j) :
    i % order.length = j % order.length :=
  (List.Nodup.getElem_inj_iff unique).mp same

/-- A cyclic order has even length. Otherwise the last and the second entry are
    both paired with the first one on side zero, so they coincide. -/
theorem cyclic_order_even (pairing : Pairing mate members) (order : List α)
    (perm : order.Perm members) (unique : members.Nodup)
    (cyclic : CyclicOrder mate order) : order.length % 2 = 0 := by
  have distinct : order.Nodup := perm.nodup_iff.mpr unique
  have member : ∀ k, (inside : k < order.length) → order[k] ∈ members :=
    fun k inside => perm.mem_iff.mp (List.getElem_mem inside)
  by_contra odd
  have nonempty : 0 < order.length := by omega
  have last := cyclic (order.length - 1) (by omega) (Nat.mod_lt _ nonempty)
  have first := cyclic 0 nonempty (Nat.mod_lt _ nonempty)
  have wrap : (order.length - 1 + 1) % order.length = 0 := by
    rw [Nat.sub_add_cancel nonempty, Nat.mod_self]
  have lastEven : (order.length - 1) % 2 = 0 := by omega
  simp only [wrap, lastEven, Nat.zero_mod, Nat.zero_add] at last first
  have back := pairing.involutive 0 (by decide) _ (member (order.length - 1) (by omega))
  rw [last, first] at back
  have same : 1 % order.length = order.length - 1 :=
    (List.Nodup.getElem_inj_iff distinct).mp back
  by_cases single : order.length = 1
  · have fixed := pairing.moves 0 (by decide) _ (member 0 nonempty)
    rw [first] at fixed
    exact fixed (by simp [single])
  · rw [Nat.mod_eq_of_lt (by omega)] at same
    omega

/-- From an even entry of an even cyclic order the walk runs along the order. -/
theorem position_forward (order : List α) (nonempty : 0 < order.length)
    (cyclic : CyclicOrder mate order) (even : order.length % 2 = 0) (origin : Nat)
    (at_start : lap order nonempty origin = start) (entry : origin % 2 = 0) (steps : Nat) :
    position mate start steps = lap order nonempty (origin + steps) := by
  induction steps with
  | zero => exact at_start.symm
  | succ steps ih =>
    have parity : (origin + steps) % 2 = steps % 2 := by omega
    have next := lap_succ order nonempty cyclic even (origin + steps)
    rw [parity] at next
    rw [position, ih, next, Nat.add_assoc]

/-- From an odd entry the walk runs against the order: the pairing that links
    an entry to its successor also leads back from the successor. -/
theorem position_backward (pairing : Pairing mate members) (order : List α)
    (perm : order.Perm members) (nonempty : 0 < order.length)
    (cyclic : CyclicOrder mate order) (even : order.length % 2 = 0) (origin : Nat)
    (at_start : lap order nonempty origin = start) (entry : origin % 2 = 1)
    (steps : Nat) (within : steps ≤ origin) :
    position mate start steps = lap order nonempty (origin - steps) := by
  induction steps with
  | zero => exact at_start.symm
  | succ steps ih =>
    have parity : (origin - (steps + 1)) % 2 = steps % 2 := by omega
    have next := lap_succ order nonempty cyclic even (origin - (steps + 1))
    rw [parity, show origin - (steps + 1) + 1 = origin - steps by omega] at next
    have member : lap order nonempty (origin - (steps + 1)) ∈ members :=
      perm.mem_iff.mp (List.getElem_mem _)
    have back := pairing.involutive (steps % 2) (Nat.mod_lt _ (by decide)) _ member
    rw [position, ih (by omega), ← next, back]

/-- On one even cycle through all members, the walk meets no member twice
    within a lap and is home after it, whichever way round it goes. -/
theorem walk_of_cyclic_order (pairing : Pairing mate members) (unique : members.Nodup)
    (inside : start ∈ members) (order : List α) (perm : order.Perm members)
    (cyclic : CyclicOrder mate order) :
    (∀ i < members.length, ∀ j < i, position mate start i ≠ position mate start j) ∧
      position mate start members.length = start ∧ members.length % 2 = 0 := by
  have even := cyclic_order_even pairing order perm unique cyclic
  have distinct : order.Nodup := perm.nodup_iff.mpr unique
  obtain ⟨entry, bound, at_entry⟩ := List.getElem_of_mem (perm.mem_iff.mpr inside)
  have nonempty : 0 < order.length := by omega
  have at_start : lap order nonempty entry = start := by
    simpa only [lap, Nat.mod_eq_of_lt bound] using at_entry
  rw [← perm.length_eq]
  by_cases parity : entry % 2 = 0
  · have along := position_forward order nonempty cyclic even entry at_start parity
    refine ⟨?_, ?_, even⟩
    · intro i i_bound j before same
      rw [along, along] at same
      have residues := lap_injective order nonempty distinct _ _ same
      have equal : i % order.length = j % order.length := Nat.ModEq.add_left_cancel' entry residues
      rw [Nat.mod_eq_of_lt i_bound, Nat.mod_eq_of_lt (by omega)] at equal
      omega
    · rw [along, lap_add_length, at_start]
  · -- One extra lap keeps the backward walk from running below step zero.
    have lapped : lap order nonempty (entry + order.length) = start := by
      rw [lap_add_length, at_start]
    have against := position_backward pairing order perm nonempty cyclic even
      (entry + order.length) lapped (by omega)
    refine ⟨?_, ?_, even⟩
    · intro i i_bound j before same
      rw [against i (by omega), against j (by omega)] at same
      have residues := lap_injective order nonempty distinct _ _ same
      have divides := (Nat.modEq_iff_dvd' (by omega)).mp residues
      have gap : entry + order.length - j - (entry + order.length - i) = i - j := by omega
      rw [gap] at divides
      exact absurd (Nat.le_of_dvd (by omega) divides) (by omega)
    · rw [against order.length (by omega), Nat.add_sub_cancel, at_start]

/-- A walk that meets no member twice within a lap visits every member: it has
    as many distinct stops as the collection has members. -/
theorem walk_visits (pairing : Pairing mate members) (inside : start ∈ members)
    (fresh : ∀ i < members.length, ∀ j < i, position mate start i ≠ position mate start j) :
    ((List.range members.length).map (position mate start)).Perm members := by
  have distinct : ((List.range members.length).map (position mate start)).Nodup := by
    refine List.Nodup.map_on ?_ List.nodup_range
    intro i i_bound j j_bound same
    rw [List.mem_range] at i_bound j_bound
    rcases Nat.lt_trichotomy i j with before | equal | after
    · exact absurd same.symm (fresh j j_bound i before)
    · exact equal
    · exact absurd same (fresh i i_bound j after)
  have included : (List.range members.length).map (position mate start) ⊆ members := by
    intro x visited
    obtain ⟨steps, _, rfl⟩ := List.mem_map.mp visited
    exact position_mem pairing inside steps
  exact (List.subperm_of_subset distinct included).perm_of_length_le (by simp)

/-- A walk that meets no member twice within a lap and comes home after it
    lists the whole collection in cyclic order. -/
theorem cyclic_order_of_walk (pairing : Pairing mate members) (inside : start ∈ members)
    (fresh : ∀ i < members.length, ∀ j < i, position mate start i ≠ position mate start j)
    (home : position mate start members.length = start) :
    ∃ order : List α, order.Perm members ∧ CyclicOrder mate order := by
  refine ⟨(List.range members.length).map (position mate start),
    walk_visits pairing inside fresh, ?_⟩
  intro k bound _
  simp only [List.length_map, List.length_range] at bound
  simp only [List.getElem_map, List.getElem_range, List.length_map, List.length_range]
  by_cases last : k + 1 = members.length
  · have step : position mate start (k + 1) = start := last ▸ home
    rw [last, Nat.mod_self]
    exact step
  · have wrapless : (k + 1) % members.length = k + 1 := Nat.mod_eq_of_lt (by omega)
    rw [wrapless]
    rfl

/-- The walk's own checks are equivalent to one alternating cycle through the
    whole collection; no assumption is made on the collection's length. -/
theorem walk_iff_cyclic_order (pairing : Pairing mate members) (unique : members.Nodup)
    (inside : start ∈ members) :
    ((∀ i < members.length, ∀ j < i, position mate start i ≠ position mate start j) ∧
        position mate start members.length = start ∧ members.length % 2 = 0) ↔
      ∃ order : List α, order.Perm members ∧ CyclicOrder mate order := by
  constructor
  · rintro ⟨fresh, home, _⟩
    exact cyclic_order_of_walk pairing inside fresh home
  · rintro ⟨order, perm, cyclic⟩
    exact walk_of_cyclic_order pairing unique inside order perm cyclic

/-- On one cycle through all members, a nonempty part that contains its own
    mates on both sides is the whole collection. -/
theorem closed_part_is_whole (pairing : Pairing mate members) (unique : members.Nodup)
    (inside : start ∈ members) (order : List α) (perm : order.Perm members)
    (cyclic : CyclicOrder mate order) (part : α → Prop) (begins : part start)
    (closed : ∀ side < 2, ∀ x ∈ members, part x → part (mate side x)) :
    ∀ x ∈ members, part x := by
  obtain ⟨fresh, _, _⟩ := walk_of_cyclic_order pairing unique inside order perm cyclic
  have reached : ∀ steps, part (position mate start steps) := by
    intro steps
    induction steps with
    | zero => exact begins
    | succ steps ih =>
      exact closed _ (Nat.mod_lt _ (by decide)) _ (position_mem pairing inside steps) ih
  intro x member
  obtain ⟨steps, _, rfl⟩ := List.mem_map.mp
    ((walk_visits pairing inside fresh).mem_iff.mpr member)
  exact reached steps

end CuckatooMiner.AlternatingWalk
