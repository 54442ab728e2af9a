import Mathlib
import CuckatooMiner.Foundation.PackedBits

/-!
# Bitmaps by windows of words

A workgroup copies a window of a bitmap's words, changes the copy and stores it back.
Windows of one size that follow each other do not overlap, so changing each of them in
turn changes every number by its own window alone.
-/

namespace CuckatooMiner.PackedBits

variable {w : Nat}

/-- Some consecutive words. -/
def window (words : List (BitVec w)) (start size : Nat) : List (BitVec w) :=
  (words.drop start).take size

/-- Replace consecutive words. -/
def storeWindow (words : List (BitVec w)) (start : Nat) (part : List (BitVec w)) :
    List (BitVec w) :=
  words.take start ++ part ++ words.drop (start + part.length)

/-- Change the windows from a first word on, one after another. -/
def overWindows (first size count : Nat) (change : Nat → List (BitVec w) → List (BitVec w))
    (words : List (BitVec w)) : List (BitVec w) :=
  (List.range count).foldl (fun words k =>
    storeWindow words (first + k * size) (change k (window words (first + k * size) size))) words

/-- A window inside the bitmap has its size. -/
theorem window_length (words : List (BitVec w)) (start size : Nat)
    (inside : start + size ≤ words.length) : (window words start size).length = size := by
  rw [window, List.length_take, List.length_drop]
  omega

/-- Replacing words inside the bitmap keeps its length. -/
theorem store_window_length (words : List (BitVec w)) (start : Nat) (part : List (BitVec w))
    (inside : start + part.length ≤ words.length) :
    (storeWindow words start part).length = words.length := by
  rw [storeWindow, List.length_append, List.length_append, List.length_take, List.length_drop]
  omega

/-- Reading a word of a window. -/
theorem getD_window (words : List (BitVec w)) (start size index : Nat) (inside : index < size) :
    (window words start size).getD index 0#w = words.getD (start + index) 0#w := by
  simp only [window, List.getD_eq_getElem?_getD, List.getElem?_take, List.getElem?_drop,
    if_pos inside]

/-- Reading a word after some were replaced. -/
theorem getD_store_window (words : List (BitVec w)) (start index : Nat) (part : List (BitVec w))
    (inside : start + part.length ≤ words.length) :
    (storeWindow words start part).getD index 0#w =
      if start ≤ index ∧ index < start + part.length then part.getD (index - start) 0#w
      else words.getD index 0#w := by
  have front : (words.take start).length = start := by
    rw [List.length_take]
    omega
  simp only [storeWindow, List.getD_eq_getElem?_getD, List.append_assoc]
  rcases Nat.lt_or_ge index start with before | after
  · rw [if_neg (by omega), List.getElem?_append_left (by omega), List.getElem?_take, if_pos before]
  · rw [List.getElem?_append_right (by omega), front]
    by_cases within : index - start < part.length
    · rw [if_pos ⟨after, by omega⟩, List.getElem?_append_left within]
    · rw [if_neg (by omega), List.getElem?_append_right (by omega), List.getElem?_drop]
      congr 2
      omega

/-- A number lies in the window of its words. -/
theorem word_in_window (start size index : Nat) (positive : 0 < w) :
    (start ≤ index / w ∧ index / w < start + size) ↔
      (start * w ≤ index ∧ index < (start + size) * w) := by
  rw [Nat.le_div_iff_mul_le positive, Nat.div_lt_iff_lt_mul positive]

/-- Testing a number of a window. -/
theorem test_window (words : List (BitVec w)) (start size index : Nat) (positive : 0 < w)
    (inside : index < size * w) :
    test (window words start size) index = test words (start * w + index) := by
  have word : index / w < size := (Nat.div_lt_iff_lt_mul positive).mpr inside
  rw [test_eq_getLsbD _ _ positive, test_eq_getLsbD _ _ positive, getD_window _ _ _ _ word,
    Nat.mul_comm start w, Nat.mul_add_div positive, Nat.mul_add_mod]

variable {first size : Nat} {change : Nat → List (BitVec w) → List (BitVec w)}

/-- Changing windows inside the bitmap keeps its length, and each word is changed in its
    own window alone. -/
theorem getD_over_windows (count : Nat) (words : List (BitVec w))
    (keeps : ∀ k part, part.length = size → (change k part).length = size)
    (inside : first + count * size ≤ words.length) :
    (overWindows first size count change words).length = words.length ∧ ∀ index,
      (overWindows first size count change words).getD index 0#w =
        if first ≤ index ∧ index < first + count * size then
          (change ((index - first) / size)
            (window words (first + (index - first) / size * size) size)).getD
              ((index - first) % size) 0#w
        else words.getD index 0#w := by
  induction count with
  | zero =>
    refine ⟨rfl, fun index => ?_⟩
    rw [if_neg (by omega)]
    rfl
  | succ count ih =>
    have next : (count + 1) * size = count * size + size := Nat.succ_mul count size
    obtain ⟨length, reads⟩ := ih (by omega)
    have unfolded : overWindows first size (count + 1) change words =
        storeWindow (overWindows first size count change words) (first + count * size)
          (change count (window (overWindows first size count change words)
            (first + count * size) size)) := by
      rw [overWindows, List.range_succ, List.foldl_append]
      rfl
    -- The window of this step has not been changed yet.
    have untouched : window (overWindows first size count change words) (first + count * size) size =
        window words (first + count * size) size := by
      have left := window_length (overWindows first size count change words)
        (first + count * size) size (by omega)
      have right := window_length words (first + count * size) size (by omega)
      apply List.ext_getElem (left.trans right.symm)
      intro k k_left k_right
      rw [← List.getD_eq_getElem _ 0#w k_left, ← List.getD_eq_getElem _ 0#w k_right,
        getD_window _ _ _ _ (by omega), getD_window _ _ _ _ (by omega), reads, if_neg (by omega)]
    have part_length : (change count (window words (first + count * size) size)).length = size :=
      keeps count _ (window_length _ _ _ (by omega))
    rw [unfolded, untouched]
    refine ⟨by rw [store_window_length _ _ _ (by omega), length], fun index => ?_⟩
    rw [getD_store_window _ _ _ _ (by omega), part_length]
    by_cases here : first + count * size ≤ index ∧ index < first + count * size + size
    · have split : index - first = (index - (first + count * size)) + size * count := by
        rw [Nat.mul_comm size count]
        omega
      have small : index - (first + count * size) < size := by omega
      rw [if_pos here, if_pos (by omega), split, Nat.add_mul_div_left _ _ (by omega),
        Nat.div_eq_of_lt small, Nat.zero_add, Nat.add_mul_mod_self_left, Nat.mod_eq_of_lt small]
    · rw [if_neg here, reads]
      by_cases earlier : first ≤ index ∧ index < first + count * size
      · rw [if_pos earlier, if_pos (by omega)]
      · rw [if_neg earlier, if_neg (by omega)]

/-- Each number is changed in its own window alone. -/
theorem test_over_windows (count : Nat) (words : List (BitVec w)) (index : Nat) (positive : 0 < w)
    (keeps : ∀ k part, part.length = size → (change k part).length = size)
    (inside : first + count * size ≤ words.length) :
    test (overWindows first size count change words) index =
      if first * w ≤ index ∧ index < (first + count * size) * w then
        test (change ((index - first * w) / (size * w))
          (window words (first + (index - first * w) / (size * w) * size) size))
          ((index - first * w) % (size * w))
      else test words index := by
  rw [test_eq_getLsbD _ _ positive, (getD_over_windows count words keeps inside).2]
  by_cases within : first * w ≤ index ∧ index < (first + count * size) * w
  · rw [if_pos ((word_in_window first (count * size) index positive).mpr within), if_pos within,
      test_eq_getLsbD _ _ positive]
    obtain ⟨rest, rfl⟩ : ∃ rest, index = first * w + rest := ⟨index - first * w, by omega⟩
    have word : (first * w + rest) / w = first + rest / w := by
      rw [Nat.mul_comm first w, Nat.mul_add_div positive]
    have place : rest % (size * w) / w = rest / w % size := by
      rw [Nat.mul_comm size w, Nat.mod_mul_right_div_self]
    have bit : rest % (size * w) % w = rest % w := by
      rw [Nat.mul_comm size w]
      exact Nat.mod_mul_right_mod rest w size
    have block : rest / (size * w) = rest / w / size := by
      rw [Nat.mul_comm size w, Nat.div_div_eq_div_mul]
    rw [Nat.add_sub_cancel_left, word, Nat.add_sub_cancel_left, place, bit, block,
      Nat.mul_comm first w, Nat.mul_add_mod]
  · have outside := fun word =>
      within ((word_in_window first (count * size) index positive).mp word)
    rw [if_neg outside, if_neg within, test_eq_getLsbD _ _ positive]

/-- Windows that hold a number are not empty. -/
theorem window_room (count index : Nat) (positive : 0 < w)
    (within : first * w ≤ index ∧ index < (first + count * size) * w) : 0 < size * w := by
  rcases Nat.eq_zero_or_pos size with none_left | some_size
  · subst none_left
    rw [Nat.mul_zero, Nat.add_zero] at within
    exact absurd within.2 (Nat.not_lt.mpr within.1)
  · exact Nat.mul_pos some_size positive

/-- The place of a number within the windows from a first word on. -/
theorem window_place (count index : Nat) (positive : 0 < size * w)
    (within : first * w ≤ index ∧ index < (first + count * size) * w) :
    (index - first * w) / (size * w) < count ∧
      first + (index - first * w) / (size * w) * size + size ≤ first + count * size ∧
      (first + (index - first * w) / (size * w) * size) * w + (index - first * w) % (size * w) =
        index := by
  obtain ⟨after, before⟩ := within
  obtain ⟨rest, rfl⟩ := Nat.exists_eq_add_of_le after
  rw [Nat.add_sub_cancel_left]
  rw [Nat.add_mul, Nat.mul_assoc] at before
  have inside : rest / (size * w) < count :=
    (Nat.div_lt_iff_lt_mul positive).mpr (Nat.lt_of_add_lt_add_left before)
  have last := Nat.mul_le_mul_right size (Nat.succ_le_of_lt inside)
  rw [Nat.succ_mul] at last
  refine ⟨inside, by omega, ?_⟩
  rw [Nat.add_mul, Nat.mul_assoc, Nat.mul_comm (rest / (size * w)), Nat.add_assoc,
    Nat.div_add_mod]

/-- Windows that only gain places. -/
theorem test_marked_windows (count : Nat) (words : List (BitVec w)) (index : Nat) (positive : 0 < w)
    (places : Nat → List Nat)
    (changes : ∀ k part, part.length = size → (change k part).length = size ∧
      ∀ place, test (change k part) place = true ↔ test part place = true ∨ place ∈ places k)
    (inside : first + count * size ≤ words.length) :
    test (overWindows first size count change words) index = true ↔
      test words index = true ∨ (first * w ≤ index ∧ index < (first + count * size) * w) ∧
        (index - first * w) % (size * w) ∈ places ((index - first * w) / (size * w)) := by
  rw [test_over_windows count words index positive (fun k part length => (changes k part length).1)
    inside]
  by_cases within : first * w ≤ index ∧ index < (first + count * size) * w
  · have room := window_room count index positive within
    obtain ⟨_, fits, place⟩ := window_place count index room within
    rw [if_pos within, (changes _ _ (window_length _ _ _ (by omega))).2,
      test_window _ _ _ _ positive (Nat.mod_lt _ room), place]
    simp only [within, and_self, true_and]
  · rw [if_neg within]
    simp only [within, false_and, or_false]

/-- Windows that only lose places. -/
theorem test_cleared_windows (count : Nat) (words : List (BitVec w)) (index : Nat) (positive : 0 < w)
    (places : Nat → List Nat) (small : ∀ k < count, ∀ place ∈ places k, place < size * w)
    (inside : first + count * size ≤ words.length) :
    test (overWindows first size count (fun k part => (places k).foldl clear part) words) index =
        true ↔
      test words index = true ∧ ¬ ((first * w ≤ index ∧ index < (first + count * size) * w) ∧
        (index - first * w) % (size * w) ∈ places ((index - first * w) / (size * w))) := by
  rw [test_over_windows count words index positive
    (fun k part length => by rw [clear_all_length, length]) inside]
  by_cases within : first * w ≤ index ∧ index < (first + count * size) * w
  · have room := window_room count index positive within
    obtain ⟨listed, fits, place⟩ := window_place count index room within
    rw [if_pos within, test_clear_all _ _ _ positive, test_window _ _ _ _ positive (Nat.mod_lt _ room),
      place, Bool.and_eq_true, Bool.not_eq_true', decide_eq_false_iff_not]
    · simp only [within, and_self, true_and]
    · intro item member
      rw [window_length _ _ _ (by omega), Nat.div_lt_iff_lt_mul positive]
      exact small _ listed item member
  · rw [if_neg within]
    simp only [within, false_and, not_false_eq_true, and_true]

end CuckatooMiner.PackedBits
