import Mathlib
import CuckatooMiner.D2

/-!
# The sorted order as an index

The searches look up all survivors with a wanted endpoint in the radix order of
the endpoints: a first cut behind the smaller keys and a second one behind the
equal keys. Both cuts are made in lists that the test splits in two, and between
them stand the indices with the wanted key, all of them and nothing else.
-/

namespace CuckatooMiner.RadixIndex

open RadixOrder D2

/-- Whether a test holds of a first part of the list and fails on the rest. -/
def Partitioned (test : Nat → Prop) (entries : List Nat) : Prop :=
  entries.Pairwise fun i j => test j → test i

/-- Behind the equal keys of a sorted list without smaller keys, no key is equal. -/
theorem drop_equal (entries keys : List Nat) (wanted : Nat)
    (sorted : entries.Pairwise fun i j => keys.getD i 0 ≤ keys.getD j 0)
    (least : ∀ i ∈ entries, wanted ≤ keys.getD i 0) :
    ∀ i ∈ entries.dropWhile fun i => keys.getD i 0 = wanted, keys.getD i 0 ≠ wanted := by
  induction entries with
  | nil => simp
  | cons first rest ih =>
    obtain ⟨before, rest_sorted⟩ := List.pairwise_cons.mp sorted
    have at_least := least first List.mem_cons_self
    by_cases equal : keys.getD first 0 = wanted
    · rw [List.dropWhile_cons_of_pos (by simpa using equal)]
      exact ih rest_sorted fun i inside => least i (List.mem_cons_of_mem _ inside)
    · rw [List.dropWhile_cons_of_neg (by simpa using equal)]
      intro i member
      rcases List.mem_cons.mp member with rfl | later
      · exact equal
      · have ordered := before i later
        omega

/-- A sorted order is split by each of the two tests of a lookup. -/
theorem lookups_partitioned (order keys : List Nat) (wanted : Nat)
    (sorted : order.Pairwise fun i j => keys.getD i 0 ≤ keys.getD j 0) :
    Partitioned (keys.getD · 0 < wanted) order ∧
      Partitioned (keys.getD · 0 = wanted)
        (order.drop (equalRange order keys wanted).1) := by
  constructor
  · apply sorted.imp
    intro i j before smaller
    omega
  · rw [equalRange, drop_first_part]
    apply (sorted.sublist (List.dropWhile_sublist _)).imp_of_mem
    intro i j i_member _ before equal
    have at_least := (drop_smaller order keys wanted sorted).1 i i_member
    omega

/-- The range of a key lies within the order. -/
theorem equal_range_inside (order keys : List Nat) (wanted : Nat) :
    (equalRange order keys wanted).1 ≤ (equalRange order keys wanted).2 ∧
      (equalRange order keys wanted).2 ≤ order.length := by
  refine ⟨Nat.le_add_left _ _, ?_⟩
  have first := (@List.takeWhile_prefix _ order
    fun index => decide (keys.getD index 0 < wanted)).length_le
  have second := (@List.takeWhile_prefix _
    (order.drop (order.takeWhile fun index => keys.getD index 0 < wanted).length)
    fun index => decide (keys.getD index 0 = wanted)).length_le
  rw [List.length_drop] at second
  simp only [equalRange]
  omega

/-- The positions of a sorted order between the two cuts are those of the wanted key. -/
theorem equal_range_block (order keys : List Nat) (wanted position index : Nat)
    (sorted : order.Pairwise fun i j => keys.getD i 0 ≤ keys.getD j 0)
    (stored : order[position]? = some index) :
    ((equalRange order keys wanted).1 ≤ position ∧ position < (equalRange order keys wanted).2) ↔
      keys.getD index 0 = wanted := by
  let smaller := order.takeWhile fun i => keys.getD i 0 < wanted
  let rest := order.dropWhile fun i => keys.getD i 0 < wanted
  let equal := rest.takeWhile fun i => keys.getD i 0 = wanted
  let larger := rest.dropWhile fun i => keys.getD i 0 = wanted
  have whole : order = smaller ++ (equal ++ larger) := by
    rw [List.takeWhile_append_dropWhile, List.takeWhile_append_dropWhile]
  have cuts : equalRange order keys wanted = (smaller.length, equal.length + smaller.length) := by
    rw [equalRange, drop_first_part]
  have least := (drop_smaller order keys wanted sorted).1
  rw [cuts]
  rw [whole] at stored
  rcases Nat.lt_or_ge position smaller.length with before | behind
  · rw [List.getElem?_append_left before] at stored
    have below := List.mem_takeWhile_imp (List.mem_of_getElem? stored)
    simp only [decide_eq_true_eq] at below
    omega
  · rw [List.getElem?_append_right behind] at stored
    rcases Nat.lt_or_ge (position - smaller.length) equal.length with within | beyond
    · rw [List.getElem?_append_left within] at stored
      have same := List.mem_takeWhile_imp (List.mem_of_getElem? stored)
      simp only [decide_eq_true_eq] at same
      omega
    · rw [List.getElem?_append_right beyond] at stored
      have different := drop_equal rest keys wanted
        (sorted.sublist (List.dropWhile_sublist _)) least index (List.mem_of_getElem? stored)
      omega

/-- The indices in a sorted order's range of a key are those with the key. -/
theorem mem_range_of_iff (order keys : List Nat) (wanted index : Nat)
    (sorted : order.Pairwise fun i j => keys.getD i 0 ≤ keys.getD j 0) :
    index ∈ rangeOf order keys wanted ↔ index ∈ order ∧ keys.getD index 0 = wanted := by
  constructor
  · intro member
    obtain ⟨offset, stored⟩ := List.mem_iff_getElem?.mp member
    simp only [rangeOf, List.getElem?_take, List.getElem?_drop] at stored
    split at stored
    · refine ⟨List.mem_of_getElem? stored, ?_⟩
      refine (equal_range_block order keys wanted _ index sorted stored).mp ?_
      omega
    · cases stored
  · rintro ⟨member, key⟩
    exact mem_range_of order keys wanted index sorted member key

/-- The radix order of 32-bit keys and the range of a key in it are an index of the keys: the
    order lists every index once, by key and among equal keys by index, no pass writes outside,
    and the range of a key is the block of its indices. The keys are fewer than two to the
    thirty-two, so that their indices have thirty-two bits as well. -/
theorem radix_index (keys : List Nat) (small : ∀ key ∈ keys, key < 2 ^ 32)
    (short : keys.length < 2 ^ 32) :
    (radixOrder keys).Perm (List.range keys.length) ∧
      (∀ index ∈ radixOrder keys, index < 2 ^ 32) ∧
      ((radixOrder keys).Pairwise fun i j =>
        keys.getD i 0 < keys.getD j 0 ∨ (keys.getD i 0 = keys.getD j 0 ∧ i < j)) ∧
      (∀ pass ∈ passes keys, ∀ position ∈ passWrites keys pass, position < keys.length) ∧
      ∀ wanted,
        Partitioned (keys.getD · 0 < wanted) (radixOrder keys) ∧
        Partitioned (keys.getD · 0 = wanted)
          ((radixOrder keys).drop (equalRange (radixOrder keys) keys wanted).1) ∧
        (equalRange (radixOrder keys) keys wanted).1 ≤
          (equalRange (radixOrder keys) keys wanted).2 ∧
        (equalRange (radixOrder keys) keys wanted).2 ≤ keys.length ∧
        (∀ position index, (radixOrder keys)[position]? = some index →
          ((equalRange (radixOrder keys) keys wanted).1 ≤ position ∧
              position < (equalRange (radixOrder keys) keys wanted).2 ↔
            keys.getD index 0 = wanted)) ∧
        (∀ index, index ∈ rangeOf (radixOrder keys) keys wanted ↔
          index < keys.length ∧ keys.getD index 0 = wanted) ∧
        (wanted ∉ keys → (equalRange (radixOrder keys) keys wanted).1 =
          (equalRange (radixOrder keys) keys wanted).2) := by
  have permuted := radix_order_perm keys
  have sorted := radix_order_sorted keys small
  have length : (radixOrder keys).length = keys.length := by simpa using permuted.length_eq
  have inside : ∀ index, index ∈ radixOrder keys ↔ index < keys.length := fun index => by
    rw [permuted.mem_iff, List.mem_range]
  refine ⟨permuted, fun index member => Nat.lt_trans ((inside index).mp member) short,
    radix_order_stable keys small, pass_writes_inside keys, fun wanted => ?_⟩
  obtain ⟨smaller_first, equal_first⟩ := lookups_partitioned _ keys wanted sorted
  obtain ⟨ordered, within⟩ := equal_range_inside (radixOrder keys) keys wanted
  refine ⟨smaller_first, equal_first, ordered, length ▸ within,
    fun position index => equal_range_block _ keys wanted position index sorted,
    fun index => by rw [mem_range_of_iff _ keys wanted index sorted, inside], fun absent => ?_⟩
  -- An inhabited block would store an index whose key is among the keys.
  by_contra nonempty
  obtain ⟨index, stored⟩ : ∃ index,
      (radixOrder keys)[(equalRange (radixOrder keys) keys wanted).1]? = some index :=
    ⟨_, List.getElem?_eq_getElem (by omega)⟩
  have key := (equal_range_block _ keys wanted _ index sorted stored).mp (by omega)
  have bound := (inside index).mp (List.mem_of_getElem? stored)
  rw [List.getD_eq_getElem _ _ bound] at key
  exact absent (key ▸ List.getElem_mem bound)

/-- The keys of the source's own test meet the bounds. -/
theorem radix_matches_sort :
    (radixOrder [7, 1, 4294967295, 7, 0, 65537, 1]).Perm (List.range 7) :=
  (radix_index [7, 1, 4294967295, 7, 0, 65537, 1] (by decide) (by decide)).1

end CuckatooMiner.RadixIndex
