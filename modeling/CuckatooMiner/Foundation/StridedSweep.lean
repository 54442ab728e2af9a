import Mathlib

/-!
# Sweeping an array with strided threads

Threads share the work on the items of an array: each starts at its own number and steps
by the number of threads until it leaves the array. Steps are taken in machine integers
of some modulus. As long as the last step does not wrap, every item is visited by
exactly one thread, once.

A sweep changes each visited entry by a function of its own place and value. Since no
entry is visited twice, the order of the visits does not matter.
-/

namespace CuckatooMiner.StridedSweep

universe u
variable {α : Type u}

/-- The items that one thread visits from an item on; a thread needs no more turns than
    there are items. -/
def stridedVisits (modulus stride count : Nat) : Nat → Nat → List Nat
  | 0, _ => []
  | turns + 1, item =>
      if count ≤ item then []
      else item :: stridedVisits modulus stride count turns ((item + stride) % modulus)

/-- The visits of all threads, thread by thread. -/
def visits (modulus threads count : Nat) : List Nat :=
  (List.range threads).flatMap (stridedVisits modulus (threads % modulus) count count)

/-- The visits of all threads where the first thread starts at some item, thread by thread. -/
def visitsFrom (modulus threads first count : Nat) : List Nat :=
  (List.range threads).flatMap fun thread =>
    stridedVisits modulus (threads % modulus) count count ((first + thread) % modulus)

/-- Change the visited entries, in the order of the visits. -/
def sweep (change : Nat → α → α) (order : List Nat) (entries : List α) : List α :=
  order.foldl (fun entries item => entries.modify item (change item)) entries

variable {modulus stride count threads : Nat}

/-- A thread visits the items at a multiple of the stride from its first one, in
    ascending order. -/
theorem strided_visits_spec (positive : 0 < stride) (fits : count + stride ≤ modulus)
    (turns item : Nat) (enough : count ≤ item + turns) :
    (stridedVisits modulus stride count turns item).Pairwise (· < ·) ∧
      ∀ other, other ∈ stridedVisits modulus stride count turns item ↔
        other < count ∧ item ≤ other ∧ other % stride = item % stride := by
  induction turns generalizing item with
  | zero =>
    refine ⟨List.Pairwise.nil, fun other => ?_⟩
    rw [stridedVisits]
    constructor
    · intro member
      cases member
    · rintro ⟨inside, later, _⟩
      omega
  | succ turns ih =>
    rw [stridedVisits]
    split
    · rename_i left
      refine ⟨List.Pairwise.nil, fun other => ?_⟩
      constructor
      · intro member
        cases member
      · rintro ⟨inside, later, _⟩
        omega
    · rename_i inside
      have next : (item + stride) % modulus = item + stride := Nat.mod_eq_of_lt (by omega)
      obtain ⟨ascending, members⟩ := ih (item + stride) (by omega)
      rw [next]
      refine ⟨List.pairwise_cons.mpr ⟨?_, ascending⟩, fun other => ?_⟩
      · intro other member
        have later := ((members other).mp member).2.1
        omega
      · rw [List.mem_cons, members, Nat.add_mod_right]
        constructor
        · rintro (rfl | ⟨bound, later, same⟩)
          · exact ⟨by omega, Nat.le_refl _, rfl⟩
          · exact ⟨bound, by omega, same⟩
        · rintro ⟨bound, later, same⟩
          rcases Nat.lt_or_ge other (item + stride) with before | after
          · -- Within one stride only the item itself has its remainder.
            left
            have apart : other - item < stride := by omega
            have zero : (other - item) % stride = 0 := (Nat.modEq_iff_dvd' later).mp same.symm |>
              Nat.mod_eq_zero_of_dvd
            rw [Nat.mod_eq_of_lt apart] at zero
            omega
          · exact Or.inr ⟨bound, after, same⟩

/-- From a first item on, every item is visited by exactly one thread, once. -/
theorem visits_from_perm (first : Nat) (positive : 0 < threads) (fits : count + threads ≤ modulus)
    (inside : first ≤ count) :
    (visitsFrom modulus threads first count).Perm (List.range' first (count - first)) := by
  rcases Nat.eq_zero_or_pos count with rfl | some_items
  · have none_visited : visitsFrom modulus threads first 0 = [] := by
      rw [visitsFrom, List.flatMap_eq_nil_iff]
      exact fun _ _ => rfl
    rw [none_visited, Nat.zero_sub]
    exact List.Perm.refl _
  have stride : threads % modulus = threads := Nat.mod_eq_of_lt (by omega)
  have start : ∀ thread ∈ List.range threads, (first + thread) % modulus = first + thread := by
    intro thread member
    have small := List.mem_range.mp member
    exact Nat.mod_eq_of_lt (by omega)
  have spec := fun thread => strided_visits_spec positive fits count (first + thread) (by omega)
  rw [visitsFrom, stride]
  apply (List.perm_ext_iff_of_nodup _ List.nodup_range').mpr
  · intro item
    rw [List.mem_flatMap, List.mem_range'_1]
    constructor
    · rintro ⟨thread, listed, member⟩
      rw [start thread listed] at member
      have visited := (spec thread).2 item |>.mp member
      omega
    · rintro ⟨after, before⟩
      have small : (item - first) % threads < threads := Nat.mod_lt _ positive
      have listed := List.mem_range.mpr small
      refine ⟨(item - first) % threads, listed, ?_⟩
      rw [start _ listed]
      refine ((spec _).2 item).mpr ⟨by omega, ?_, ?_⟩
      · have most := Nat.mod_le (item - first) threads
        omega
      · rw [Nat.add_mod_mod, Nat.add_sub_cancel' after]
  · rw [List.nodup_flatMap]
    constructor
    · intro thread listed
      rw [start thread listed]
      exact (spec thread).1.imp Nat.ne_of_lt
    · apply List.Pairwise.imp_of_mem _ List.nodup_range
      intro left right left_member right_member different item in_left in_right
      simp only [start left left_member] at in_left
      simp only [start right right_member] at in_right
      have left_rest := ((spec left).2 item |>.mp in_left).2.2
      have right_rest := ((spec right).2 item |>.mp in_right).2.2
      -- One remainder belongs to one thread only.
      have same : left % threads = right % threads :=
        Nat.ModEq.add_left_cancel' first (left_rest.symm.trans right_rest)
      rw [Nat.mod_eq_of_lt (List.mem_range.mp left_member),
        Nat.mod_eq_of_lt (List.mem_range.mp right_member)] at same
      exact different same

/-- Reading the entries of a range one by one reads the range. -/
theorem read_range (entries : List α) (missing : α) (first count : Nat)
    (inside : first + count ≤ entries.length) :
    (List.range' first count).map (entries.getD · missing) = (entries.drop first).take count := by
  apply List.ext_getElem
  · rw [List.length_map, List.length_range', List.length_take, List.length_drop]
    omega
  · intro place left right
    rw [List.length_map, List.length_range'] at left
    rw [List.getElem_map, List.getElem_range', Nat.one_mul, List.getElem_take, List.getElem_drop,
      List.getD_eq_getElem _ _ (by omega)]

/-- Every item is visited by exactly one thread, once. -/
theorem visits_perm (positive : 0 < threads) (fits : count + threads ≤ modulus) :
    (visits modulus threads count).Perm (List.range count) := by
  have from_zero : visits modulus threads count = visitsFrom modulus threads 0 count := by
    rw [visits, visitsFrom]
    apply List.flatMap_congr
    intro thread member
    have small : thread < modulus := by
      have listed := List.mem_range.mp member
      omega
    rw [Nat.zero_add, Nat.mod_eq_of_lt small]
  rw [from_zero, List.range_eq_range']
  exact visits_from_perm 0 positive fits (Nat.zero_le _)

/-- No thread visits an item outside the array. -/
theorem visits_inside (item : Nat) (visited : item ∈ visits modulus threads count) : item < count := by
  have strided : ∀ stride turns first, item ∈ stridedVisits modulus stride count turns first →
      item < count := by
    intro stride turns
    induction turns with
    | zero =>
      intro first impossible
      cases impossible
    | succ turns ih =>
      intro first member
      rw [stridedVisits] at member
      split at member
      · cases member
      · rename_i inside
        rcases List.mem_cons.mp member with rfl | later
        · exact Nat.lt_of_not_le inside
        · exact ih _ later
  obtain ⟨thread, _, member⟩ := List.mem_flatMap.mp visited
  exact strided _ _ _ member

/-- A sweep changes each visited entry once. -/
theorem sweep_getElem (change : Nat → α → α) (order : List Nat) (unique : order.Nodup)
    (entries : List α) (item : Nat) :
    (sweep change order entries)[item]? =
      if item ∈ order then entries[item]?.map (change item) else entries[item]? := by
  induction order generalizing entries with
  | nil => rfl
  | cons first rest ih =>
    obtain ⟨fresh, rest_unique⟩ := List.nodup_cons.mp unique
    rw [sweep, List.foldl_cons, ← sweep, ih rest_unique, List.getElem?_modify]
    by_cases here : first = item
    · subst here
      simp [fresh]
    · have different : item ≠ first := fun same => here same.symm
      simp [here, different]

/-- A sweep over all items changes every entry, whatever its order. -/
theorem sweep_all (change : Nat → α → α) (order : List Nat) (entries : List α)
    (all : order.Perm (List.range entries.length)) :
    sweep change order entries = entries.mapIdx change := by
  apply List.ext_getElem?
  intro item
  rw [sweep_getElem change order (all.nodup_iff.mpr List.nodup_range), List.getElem?_mapIdx]
  split
  · rfl
  · rename_i outside
    rw [all.mem_iff, List.mem_range] at outside
    rw [List.getElem?_eq_none (by omega)]
    rfl

end CuckatooMiner.StridedSweep
