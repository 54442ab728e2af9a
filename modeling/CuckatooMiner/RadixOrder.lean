import Mathlib
import CuckatooMiner.Foundation.CountingPass

/-!
# Radix order

`radix_order` returns the indices of 32-bit keys in ascending order of the keys:
one counting pass over the low halves, one over the high halves, each into the
list that the other leaves behind. Stability of the second pass makes the two
halves together sort by the whole key.
-/

namespace CuckatooMiner.RadixOrder

open CountingPass

/-- The half of an index's key that a pass sorts by. -/
def keyDigit (keys : List Nat) (shift index : Nat) : Nat :=
  (keys.getD index 0 >>> shift) &&& 0xffff

/-- The indices of the keys, ordered by key. -/
def radixOrder (keys : List Nat) : List Nat :=
  let order := List.range keys.length
  let scratch := List.replicate keys.length 0
  let pass := fun (state : List Nat × List Nat) shift =>
    (countingPass (keyDigit keys shift) (1 <<< 16) state.1 state.2, state.1)
  ([0, 16].foldl pass (order, scratch)).1

/-- The indices after the first pass, ordered by the low halves. -/
def lowOrder (keys : List Nat) : List Nat :=
  countingPass (keyDigit keys 0) (1 <<< 16) (List.range keys.length)
    (List.replicate keys.length 0)

/-- The two passes, each with the half that it sorts by and the indices that it reads. -/
def passes (keys : List Nat) : List (Nat × List Nat) :=
  [(0, List.range keys.length), (16, lowOrder keys)]

/-- The positions that a pass writes to. -/
def passWrites (keys : List Nat) (pass : Nat × List Nat) : List Nat :=
  writePositions (keyDigit keys pass.1) pass.2
    (exclusiveSums 0 (tally (keyDigit keys pass.1) pass.2 (List.replicate (1 <<< 16) 0)))

/-- A digit is a 16-bit number. -/
theorem key_digit_lt (keys : List Nat) (shift index : Nat) :
    keyDigit keys shift index < 1 <<< 16 :=
  Nat.lt_of_le_of_lt Nat.and_le_right (by decide)

/-- The digits of a key are its halves. -/
theorem key_digit_halves (keys : List Nat) (index : Nat)
    (small : keys.getD index 0 < 2 ^ 32) :
    keyDigit keys 0 index = keys.getD index 0 % 65536 ∧
      keyDigit keys 16 index = keys.getD index 0 / 65536 := by
  have mask : ∀ value : Nat, value &&& 0xffff = value % 65536 :=
    fun value => Nat.and_two_pow_sub_one_eq_mod value 16
  simp only [keyDigit, mask, Nat.shiftRight_eq_div_pow]
  omega

/-- The radix order lists every index once. -/
theorem radix_order_perm (keys : List Nat) :
    (radixOrder keys).Perm (List.range keys.length) := by
  have first := counting_pass_perm (keyDigit keys 0) (1 <<< 16)
    (List.range keys.length) (List.replicate keys.length 0)
    (fun index _ => key_digit_lt keys 0 index) (by simp)
  have second := counting_pass_perm (keyDigit keys 16) (1 <<< 16) _
    (List.range keys.length) (fun index _ => key_digit_lt keys 16 index) first.length_eq.symm
  exact second.trans first

/-- Each pass reads every index once. -/
theorem passes_perm (keys : List Nat) (pass : Nat × List Nat) (member : pass ∈ passes keys) :
    pass.2.Perm (List.range keys.length) := by
  rcases List.mem_cons.mp member with rfl | last
  · exact List.Perm.refl _
  · rw [List.mem_singleton.mp last]
    exact counting_pass_perm (keyDigit keys 0) (1 <<< 16) (List.range keys.length)
      (List.replicate keys.length 0) (fun index _ => key_digit_lt keys 0 index) (by simp)

/-- The radix order is what the writes of the second pass leave in the list that the
    first pass has read. -/
theorem radix_order_writes (keys : List Nat) :
    radixOrder keys = ((passWrites keys (16, lowOrder keys)).zip (lowOrder keys)).foldl
      (fun scratch write => scratch.set write.1 write.2) (List.range keys.length) :=
  place_items_writes (lowOrder keys) (List.range keys.length)
    (exclusiveSums 0 (tally (keyDigit keys 16) (lowOrder keys) (List.replicate (1 <<< 16) 0)))

/-- Each pass writes within the keys. -/
theorem pass_writes_inside (keys : List Nat) (pass : Nat × List Nat)
    (member : pass ∈ passes keys) : ∀ position ∈ passWrites keys pass, position < keys.length := by
  have length : pass.2.length = keys.length := by
    simpa using (passes_perm keys pass member).length_eq
  intro position written
  rw [← length]
  exact write_positions_inside (keyDigit keys pass.1) (1 <<< 16) pass.2 pass.2
    (fun index _ => key_digit_lt keys pass.1 index) rfl position written

/-- The radix order is ascending in the keys, and indices with one key stay in
    ascending order. -/
theorem radix_order_stable (keys : List Nat) (small : ∀ key ∈ keys, key < 2 ^ 32) :
    (radixOrder keys).Pairwise fun i j =>
      keys.getD i 0 < keys.getD j 0 ∨ (keys.getD i 0 = keys.getD j 0 ∧ i < j) := by
  have bounded : ∀ index, keys.getD index 0 < 2 ^ 32 := by
    intro index
    rcases Nat.lt_or_ge index keys.length with inside | outside
    · rw [List.getD_eq_getElem _ _ inside]
      exact small _ (List.getElem_mem inside)
    · rw [List.getD_eq_default _ _ outside]
      decide
  have permuted := counting_pass_perm (keyDigit keys 0) (1 <<< 16)
    (List.range keys.length) (List.replicate keys.length 0)
    (fun index _ => key_digit_lt keys 0 index) (by simp)
  have first := counting_pass_sorted (keyDigit keys 0) (1 <<< 16)
    (List.range keys.length) (List.replicate keys.length 0)
    (fun index _ => key_digit_lt keys 0 index) (by simp) (· < ·) List.pairwise_lt_range
  have second := counting_pass_sorted (keyDigit keys 16) (1 <<< 16) _
    (List.range keys.length) (fun index _ => key_digit_lt keys 16 index)
    permuted.length_eq.symm _ first
  apply second.imp
  intro i j before
  obtain ⟨i_low, i_high⟩ := key_digit_halves keys i (bounded i)
  obtain ⟨j_low, j_high⟩ := key_digit_halves keys j (bounded j)
  rw [i_low, i_high, j_low, j_high] at before
  omega

/-- The radix order is ascending in the keys. -/
theorem radix_order_sorted (keys : List Nat) (small : ∀ key ∈ keys, key < 2 ^ 32) :
    (radixOrder keys).Pairwise fun i j => keys.getD i 0 ≤ keys.getD j 0 := by
  apply (radix_order_stable keys small).imp
  intro i j before
  omega

/-- Where every key occurs once, the radix order is the indices sorted by their keys. -/
theorem radix_order_of_unique (keys : List Nat) (small : ∀ key ∈ keys, key < 2 ^ 32)
    (unique : keys.Nodup) :
    radixOrder keys =
      (List.range keys.length).insertionSort fun i j => keys.getD i 0 ≤ keys.getD j 0 := by
  have total : Std.Total fun i j => keys.getD i 0 ≤ keys.getD j 0 := ⟨fun i j => Nat.le_total _ _⟩
  have transitive : IsTrans Nat fun i j => keys.getD i 0 ≤ keys.getD j 0 :=
    ⟨fun _ _ _ first second => Nat.le_trans first second⟩
  have sorted := List.perm_insertionSort (fun i j => keys.getD i 0 ≤ keys.getD j 0)
    (List.range keys.length)
  refine List.Perm.eq_of_pairwise ?_ (radix_order_sorted keys small)
    (List.pairwise_insertionSort _ (List.range keys.length)) ((radix_order_perm keys).trans sorted.symm)
  intro i j i_listed j_listed before after
  have i_inside := List.mem_range.mp ((radix_order_perm keys).mem_iff.mp i_listed)
  have j_inside := List.mem_range.mp (sorted.mem_iff.mp j_listed)
  have same : keys.getD i 0 = keys.getD j 0 := Nat.le_antisymm before after
  rw [List.getD_eq_getElem _ _ i_inside, List.getD_eq_getElem _ _ j_inside] at same
  exact (unique.getElem_inj_iff).mp same

end CuckatooMiner.RadixOrder
