import Mathlib

/-!
# Sets packed into words

A bitmap keeps a set of numbers in a list of words, one bit a number. Setting
and clearing a bit change the membership of one number; setting the bits of a
whole list adds its numbers, in whatever order they come. Enumerating a word by
its lowest set bit, which subtracting one and masking then removes, lists its
numbers in ascending order.

The word width is a parameter; numbers are natural, and a bit outside the list of
words reads as clear.
-/

namespace CuckatooMiner.PackedBits

variable {w : Nat}

/-- The bit of a number within its word. -/
def bit (w index : Nat) : BitVec w := 1#w <<< (index % w)

/-- Whether a number's bit is set. -/
def test (words : List (BitVec w)) (index : Nat) : Bool :=
  words.getD (index / w) 0#w &&& bit w index != 0#w

/-- Set a number's bit. -/
def put (words : List (BitVec w)) (index : Nat) : List (BitVec w) :=
  words.modify (index / w) (· ||| bit w index)

/-- Clear a number's bit. -/
def clear (words : List (BitVec w)) (index : Nat) : List (BitVec w) :=
  words.modify (index / w) (· &&& ~~~ bit w index)

/-- A number's mask is set exactly at its place. -/
theorem bit_getLsbD (index place : Nat) (inside : place < w) :
    (bit w index).getLsbD place = decide (place = index % w) := by
  rw [bit, BitVec.getLsbD_shiftLeft, BitVec.getLsbD_one]
  have bound : index % w < w := Nat.mod_lt _ (by omega)
  grind

/-- Masking with a number's bit reads that bit. -/
theorem test_eq_getLsbD (words : List (BitVec w)) (index : Nat) (positive : 0 < w) :
    test words index = (words.getD (index / w) 0#w).getLsbD (index % w) := by
  have place : index % w < w := Nat.mod_lt _ positive
  rw [test, Bool.eq_iff_iff, bne_iff_ne]
  constructor
  · intro nonzero
    by_contra unset
    apply nonzero
    apply BitVec.eq_of_getLsbD_eq
    intro i inside
    rw [BitVec.getLsbD_and, bit_getLsbD index i inside]
    by_cases here : i = index % w
    · subst here
      simpa using unset
    · simp [here]
  · intro set_bit empty
    have read := congrArg (fun word => word.getLsbD (index % w)) empty
    simp only [BitVec.getLsbD_and, set_bit, bit_getLsbD index _ place] at read
    simp at read

/-- A number outside the words is absent. -/
theorem test_outside (words : List (BitVec w)) (index : Nat) (outside : words.length ≤ index / w) :
    test words index = false := by
  rw [test, List.getD_eq_getElem?_getD, List.getElem?_eq_none outside]
  simp

/-- A present number lies inside the words. -/
theorem inside_of_test (words : List (BitVec w)) (index : Nat) (present : test words index = true) :
    index / w < words.length := by
  by_contra outside
  rw [test_outside words index (by omega)] at present
  cases present

/-- Two numbers with the same word and place are the same. -/
theorem same_word_place (left right : Nat) (word : left / w = right / w)
    (place : left % w = right % w) : left = right := by
  rw [← Nat.div_add_mod left w, ← Nat.div_add_mod right w, word, place]

@[simp] theorem put_length (words : List (BitVec w)) (index : Nat) :
    (put words index).length = words.length := by
  simp [put]

@[simp] theorem clear_length (words : List (BitVec w)) (index : Nat) :
    (clear words index).length = words.length := by
  simp [clear]

/-- Reading a modified word. -/
theorem getD_modify (words : List (BitVec w)) (change : BitVec w → BitVec w) (here there : Nat)
    (inside : here < words.length) :
    (words.modify here change).getD there 0#w =
      if here = there then change (words.getD there 0#w) else words.getD there 0#w := by
  rw [List.getD_eq_getElem?_getD, List.getElem?_modify]
  by_cases same : here = there
  · subst same
    simp [inside]
  · simp [same]

/-- Setting a bit adds exactly its number. -/
theorem test_put (words : List (BitVec w)) (index other : Nat) (positive : 0 < w)
    (inside : index / w < words.length) :
    test (put words index) other = (test words other || decide (other = index)) := by
  have place : other % w < w := Nat.mod_lt _ positive
  rw [test_eq_getLsbD _ _ positive, test_eq_getLsbD _ _ positive, put,
    getD_modify _ _ _ _ inside]
  by_cases word : index / w = other / w
  · rw [if_pos word, BitVec.getLsbD_or, bit_getLsbD index _ place]
    congr 1
    rw [decide_eq_decide]
    exact ⟨fun same => same_word_place other index word.symm same, fun same => by rw [same]⟩
  · rw [if_neg word]
    have different : other ≠ index := fun same => word (by rw [same])
    simp [different]

/-- Clearing a bit removes exactly its number. -/
theorem test_clear (words : List (BitVec w)) (index other : Nat) (positive : 0 < w)
    (inside : index / w < words.length) :
    test (clear words index) other = (test words other && !decide (other = index)) := by
  have place : other % w < w := Nat.mod_lt _ positive
  rw [test_eq_getLsbD _ _ positive, test_eq_getLsbD _ _ positive, clear,
    getD_modify _ _ _ _ inside]
  by_cases word : index / w = other / w
  · rw [if_pos word, BitVec.getLsbD_and, BitVec.getLsbD_not, bit_getLsbD index _ place]
    simp only [place, decide_true, Bool.true_and]
    congr 2
    rw [decide_eq_decide]
    exact ⟨fun same => same_word_place other index word.symm same, fun same => by rw [same]⟩
  · rw [if_neg word]
    have different : other ≠ index := fun same => word (by rw [same])
    simp [different]

/-- Setting the bits of a list adds exactly its numbers. -/
theorem test_put_all (words : List (BitVec w)) (items : List Nat) (other : Nat) (positive : 0 < w)
    (inside : ∀ item ∈ items, item / w < words.length) :
    test (items.foldl put words) other = (test words other || decide (other ∈ items)) := by
  induction items generalizing words with
  | nil => simp
  | cons item rest ih =>
    have head := inside item List.mem_cons_self
    rw [List.foldl_cons, ih (put words item)
      (fun later member => by simpa using inside later (List.mem_cons_of_mem _ member)),
      test_put words item other positive head]
    simp [Bool.or_assoc]

@[simp] theorem put_all_length (words : List (BitVec w)) (items : List Nat) :
    (items.foldl put words).length = words.length := by
  induction items generalizing words with
  | nil => rfl
  | cons item rest ih => rw [List.foldl_cons, ih, put_length]

/-- Clearing the bits of a list removes exactly its numbers. -/
theorem test_clear_all (words : List (BitVec w)) (items : List Nat) (other : Nat) (positive : 0 < w)
    (inside : ∀ item ∈ items, item / w < words.length) :
    test (items.foldl clear words) other = (test words other && !decide (other ∈ items)) := by
  induction items generalizing words with
  | nil => simp
  | cons item rest ih =>
    have head := inside item List.mem_cons_self
    rw [List.foldl_cons, ih (clear words item)
      (fun later member => by simpa using inside later (List.mem_cons_of_mem _ member)),
      test_clear words item other positive head]
    simp [Bool.and_assoc]

@[simp] theorem clear_all_length (words : List (BitVec w)) (items : List Nat) :
    (items.foldl clear words).length = words.length := by
  induction items generalizing words with
  | nil => rfl
  | cons item rest ih => rw [List.foldl_cons, ih, clear_length]

/-- Bitmaps of one length with the same numbers are the same. -/
theorem ext_test (left right : List (BitVec w)) (positive : 0 < w)
    (length : left.length = right.length) (tests : ∀ index, test left index = test right index) :
    left = right := by
  apply List.ext_getElem length
  intro word left_bound right_bound
  apply BitVec.eq_of_getLsbD_eq
  intro place inside
  have same := tests (word * w + place)
  rw [test_eq_getLsbD _ _ positive, test_eq_getLsbD _ _ positive, Nat.mul_comm word w,
    Nat.mul_add_div positive, Nat.mul_add_mod, Nat.div_eq_of_lt inside, Nat.mod_eq_of_lt inside,
    Nat.add_zero, List.getD_eq_getElem _ _ left_bound, List.getD_eq_getElem _ _ right_bound] at same
  exact same

/-- A bitmap of clear words is empty. -/
theorem test_replicate_zero (count index : Nat) : test (List.replicate count 0#w) index = false := by
  rw [test, List.getD_eq_getElem?_getD, List.getElem?_replicate]
  split <;> simp

/-- Joining bitmaps of one length word by word. -/
theorem test_zip_or (left right : List (BitVec w)) (index : Nat) (positive : 0 < w)
    (length : left.length = right.length) :
    test (List.zipWith (· ||| ·) left right) index = (test left index || test right index) := by
  rw [test_eq_getLsbD _ _ positive, test_eq_getLsbD _ _ positive, test_eq_getLsbD _ _ positive,
    ← BitVec.getLsbD_or]
  congr 1
  simp only [List.getD_eq_getElem?_getD, List.getElem?_zipWith]
  rcases Nat.lt_or_ge (index / w) left.length with inside | outside
  · rw [List.getElem?_eq_getElem inside, List.getElem?_eq_getElem (length ▸ inside)]
    rfl
  · rw [List.getElem?_eq_none outside, List.getElem?_eq_none (length ▸ outside)]
    simp

/-! ## Enumerating a word -/

/-- The number of trailing zeros, the width for the zero word. -/
def trailingZeros (word : BitVec w) : Nat :=
  (List.range w).findIdx (word.getLsbD ·)

/-- List the set bits of a word, lowest first; subtracting one and masking
    clears the bit just listed, so as many passes as bits suffice. -/
def drain : Nat → BitVec w → List Nat
  | 0, _ => []
  | passes + 1, word =>
      if word = 0#w then []
      else trailingZeros word :: drain passes (word &&& (word - 1#w))

/-- The bits that are set. -/
def ones (word : BitVec w) : List Nat := (List.range w).filter (word.getLsbD ·)

/-- The trailing zeros of a nonzero word end at its lowest set bit. -/
theorem trailing_zeros_spec (word : BitVec w) (nonzero : word ≠ 0#w) :
    trailingZeros word < w ∧ word.getLsbD (trailingZeros word) = true ∧
      ∀ i < trailingZeros word, word.getLsbD i = false := by
  have found : trailingZeros word < w := by
    by_contra none_found
    apply nonzero
    apply BitVec.eq_of_getLsbD_eq
    intro i inside
    have all_clear : trailingZeros word = (List.range w).length := by
      have most : (List.range w).findIdx (word.getLsbD ·) ≤ (List.range w).length :=
        List.findIdx_le_length
      rw [List.length_range] at most ⊢
      exact Nat.le_antisymm most (by omega)
    rw [trailingZeros, List.findIdx_eq_length] at all_clear
    simpa using all_clear i (List.mem_range.mpr inside)
  have bound : (List.range w).findIdx (word.getLsbD ·) < (List.range w).length := by
    simpa [trailingZeros] using found
  refine ⟨found, ?_, ?_⟩
  · have hit := List.findIdx_getElem (w := bound)
    simpa [trailingZeros] using hit
  · intro i below
    have unset := List.not_of_lt_findIdx (p := (word.getLsbD ·)) below
    simpa using unset

/-- A number whose lowest set bit is known is an odd multiple of its power. -/
theorem lowest_bit_form (value lowest : Nat) (set_there : value.testBit lowest = true)
    (clear_below : ∀ i < lowest, value.testBit i = false) :
    ∃ k, value = 2 ^ lowest * (2 * k + 1) := by
  have divides : value % 2 ^ lowest = 0 := by
    apply Nat.eq_of_testBit_eq
    intro i
    rw [Nat.testBit_mod_two_pow, Nat.zero_testBit]
    by_cases below : i < lowest
    · simp [clear_below i below]
    · simp [below]
  have odd : value / 2 ^ lowest % 2 = 1 := by
    have read := set_there
    rw [Nat.testBit_eq_decide_div_mod_eq] at read
    simpa using read
  refine ⟨value / 2 ^ lowest / 2, ?_⟩
  have whole := Nat.div_add_mod value (2 ^ lowest)
  have halves := Nat.div_add_mod (value / 2 ^ lowest) 2
  rw [odd] at halves
  rw [halves]
  omega

/-- Masking a number with its predecessor clears the lowest set bit and nothing
    else: below it the predecessor's bits are set but the number's are clear, and
    above it the two agree. -/
theorem and_pred_testBit (value lowest : Nat) (set_there : value.testBit lowest = true)
    (clear_below : ∀ i < lowest, value.testBit i = false) (i : Nat) :
    (value &&& (value - 1)).testBit i = (value.testBit i && decide (i ≠ lowest)) := by
  obtain ⟨k, form⟩ := lowest_bit_form value lowest set_there clear_below
  have positive : 0 < 2 ^ lowest := Nat.two_pow_pos lowest
  have pred_form : value - 1 = 2 ^ lowest * (2 * k) + (2 ^ lowest - 1) := by
    rw [form, Nat.mul_add, Nat.mul_one]
    omega
  have value_form : value = 2 ^ lowest * (2 * k + 1) + 0 := form
  rw [Nat.testBit_and]
  rcases Nat.lt_trichotomy i lowest with below | rfl | above
  · simp [clear_below i below]
  · rw [pred_form, Nat.testBit_two_pow_mul_add _ (by omega)]
    simp
  · obtain ⟨j, rfl⟩ : ∃ j, i = lowest + (j + 1) := ⟨i - lowest - 1, by omega⟩
    have same : (value - 1).testBit (lowest + (j + 1)) = value.testBit (lowest + (j + 1)) := by
      rw [pred_form, Nat.testBit_two_pow_mul_add _ (by omega), value_form,
        Nat.testBit_two_pow_mul_add _ positive]
      simp only [show ¬ lowest + (j + 1) < lowest by omega, if_false, Nat.add_sub_cancel_left,
        Nat.testBit_add_one]
      congr 1
      omega
    rw [same, Bool.and_self]
    simp

/-- Masking a nonzero word with its predecessor clears its lowest set bit. -/
theorem and_pred_getLsbD (word : BitVec w) (nonzero : word ≠ 0#w) (i : Nat) :
    (word &&& (word - 1#w)).getLsbD i = (word.getLsbD i && decide (i ≠ trailingZeros word)) := by
  obtain ⟨inside, set_there, clear_below⟩ := trailing_zeros_spec word nonzero
  have positive : 0 < word.toNat := by
    rcases Nat.eq_zero_or_pos word.toNat with empty | positive
    · exact absurd (BitVec.eq_of_toNat_eq (by simpa using empty)) nonzero
    · exact positive
  have pred : (word - 1#w).toNat = word.toNat - 1 := by
    have wide : 1 < 2 ^ w := Nat.one_lt_two_pow (by omega)
    rw [BitVec.toNat_sub_of_le]
    · rw [BitVec.toNat_ofNat, Nat.mod_eq_of_lt wide]
    · rw [BitVec.le_def, BitVec.toNat_ofNat, Nat.mod_eq_of_lt wide]
      exact positive
  simp only [← BitVec.testBit_toNat, BitVec.toNat_and, pred] at set_there clear_below ⊢
  exact and_pred_testBit word.toNat (trailingZeros word) set_there clear_below i

/-- The lowest set bit heads the list of ones; the masked word lists the rest. -/
theorem ones_step (word : BitVec w) (nonzero : word ≠ 0#w) :
    ones word = trailingZeros word :: ones (word &&& (word - 1#w)) := by
  obtain ⟨inside, set_there, clear_below⟩ := trailing_zeros_spec word nonzero
  have sorted : ∀ word : BitVec w, (ones word).Pairwise (· < ·) :=
    fun word => List.pairwise_lt_range.filter _
  apply List.Pairwise.eq_of_mem_iff (sorted word)
  · refine List.pairwise_cons.mpr ⟨?_, sorted _⟩
    intro i member
    simp only [ones, List.mem_filter, and_pred_getLsbD word nonzero, Bool.and_eq_true,
      decide_eq_true_eq] at member
    obtain ⟨_, set_bit, different⟩ := member
    by_contra below
    have unset := clear_below i (by omega)
    rw [unset] at set_bit
    cases set_bit
  · intro i
    simp only [ones, List.mem_cons, List.mem_filter, List.mem_range,
      and_pred_getLsbD word nonzero, Bool.and_eq_true, decide_eq_true_eq]
    by_cases lowest : i = trailingZeros word
    · subst lowest
      simp [inside, set_there]
    · simp [lowest]

/-- With as many passes as bits, draining lists the ones. -/
theorem drain_ones (passes : Nat) (word : BitVec w) (enough : (ones word).length ≤ passes) :
    drain passes word = ones word := by
  induction passes generalizing word with
  | zero =>
    rw [drain, List.length_eq_zero_iff.mp (Nat.le_zero.mp enough)]
  | succ passes ih =>
    rw [drain]
    split
    · rename_i empty
      subst empty
      simp [ones]
    · rename_i nonzero
      rw [ones_step word nonzero] at enough ⊢
      rw [ih _ (by simpa using enough)]

/-- One pass a bit of the word's width is enough. -/
theorem drain_width (word : BitVec w) : drain w word = ones word :=
  drain_ones w word (by
    have most := List.length_filter_le (word.getLsbD ·) (List.range w)
    simpa [ones] using most)

/-- Enumerate consecutive words, the first at a given word index. -/
def members (first : Nat) : List (BitVec w) → List Nat
  | [] => []
  | word :: rest => (drain w word).map (first * w + ·) ++ members (first + 1) rest

/-- The enumeration lists the present numbers. -/
theorem mem_members (words : List (BitVec w)) (first index : Nat) (positive : 0 < w) :
    index ∈ members first words ↔
      first * w ≤ index ∧ test words (index - first * w) = true := by
  induction words generalizing first with
  | nil => simp [members, test]
  | cons word rest ih =>
    rw [members, List.mem_append, ih, drain_width]
    simp only [List.mem_map, ones, List.mem_filter, List.mem_range]
    have next : (first + 1) * w = first * w + w := by ring
    rw [next]
    constructor
    · rintro (⟨place, ⟨inside, set_bit⟩, rfl⟩ | ⟨after, present⟩)
      · refine ⟨Nat.le_add_right _ _, ?_⟩
        rw [test_eq_getLsbD _ _ positive, Nat.add_sub_cancel_left, Nat.div_eq_of_lt inside,
          Nat.mod_eq_of_lt inside]
        simpa using set_bit
      · refine ⟨by omega, ?_⟩
        rw [test_eq_getLsbD _ _ positive] at present ⊢
        obtain ⟨place, split⟩ : ∃ place, index - first * w = place + w :=
          ⟨index - first * w - w, by omega⟩
        rw [split, Nat.add_div_right _ positive, Nat.add_mod_right]
        rw [show index - (first * w + w) = place by omega] at present
        simpa using present
    · rintro ⟨after, present⟩
      rw [test_eq_getLsbD _ _ positive] at present
      rcases Nat.lt_or_ge (index - first * w) w with inside | beyond
      · rw [Nat.div_eq_of_lt inside, Nat.mod_eq_of_lt inside] at present
        exact Or.inl ⟨index - first * w, ⟨inside, by simpa using present⟩, by omega⟩
      · refine Or.inr ⟨by omega, ?_⟩
        rw [test_eq_getLsbD _ _ positive]
        obtain ⟨place, split⟩ : ∃ place, index - first * w = place + w :=
          ⟨index - first * w - w, by omega⟩
        rw [split, Nat.add_div_right _ positive, Nat.add_mod_right] at present
        rw [show index - (first * w + w) = place by omega]
        simpa using present

/-- The enumeration is strictly ascending. -/
theorem members_ascending (words : List (BitVec w)) (first : Nat) (positive : 0 < w) :
    (members first words).Pairwise (· < ·) := by
  induction words generalizing first with
  | nil => exact List.Pairwise.nil
  | cons word rest ih =>
    rw [members, List.pairwise_append, drain_width]
    refine ⟨?_, ih (first + 1), ?_⟩
    · rw [List.pairwise_map]
      exact (List.pairwise_lt_range.filter _).imp fun below => by omega
    · intro left left_member right right_member
      obtain ⟨place, place_member, rfl⟩ := List.mem_map.mp left_member
      have inside : place < w := List.mem_range.mp (List.mem_of_mem_filter place_member)
      have after := ((mem_members rest (first + 1) right positive).mp right_member).1
      have next : (first + 1) * w = first * w + w := by ring
      omega

end CuckatooMiner.PackedBits
