import Mathlib

/-!
# Sorting by one digit

A counting pass tallies how often each digit occurs, turns the tallies into the
first position of each digit's segment, and writes every item to its segment's
next free position. Whatever the scratch list held before, the pass leaves the
items with each digit in their old order, one digit after the other.

Items and digits are arbitrary; the only requirement is that all digits are
below the number of tallies and that the scratch list is as long as the items.
-/

namespace CuckatooMiner.CountingPass

universe u
variable {ι : Type u} (digit : ι → Nat)

/-- Count the items of each digit. -/
def tally (items : List ι) (counts : List Nat) : List Nat :=
  items.foldl (fun counts item => counts.modify (digit item) (· + 1)) counts

/-- Replace each count by the sum of the counts before it. -/
def exclusiveSums : Nat → List Nat → List Nat
  | _, [] => []
  | position, count :: rest => position :: exclusiveSums (position + count) rest

/-- Write each item to the position its digit has reached, and advance that position. -/
def placeItems (items : List ι) (scratch : List ι) (positions : List Nat) :
    List ι × List Nat :=
  items.foldl (fun state item =>
    (state.1.set (state.2.getD (digit item) 0) item, state.2.modify (digit item) (· + 1)))
    (scratch, positions)

/-- The positions that placing the items writes to, in the order of the writes. -/
def writePositions : List ι → List Nat → List Nat
  | [], _ => []
  | item :: rest, positions =>
      positions.getD (digit item) 0 ::
        writePositions rest (positions.modify (digit item) (· + 1))

/-- One pass: tally, sum up, place. -/
def countingPass (buckets : Nat) (items scratch : List ι) : List ι :=
  (placeItems digit items scratch
    (exclusiveSums 0 (tally digit items (List.replicate buckets 0)))).1

/-- The items with one digit, in order. -/
def bucket (items : List ι) (b : Nat) : List ι := items.filter (digit · = b)

/-- The first position of a digit's segment. -/
def offset (items : List ι) (b : Nat) : Nat :=
  ((List.range b).flatMap (bucket digit items)).length

variable {digit}

/-- Reading a list of numbers after one of them was increased. -/
theorem getD_increment (counts : List Nat) (here there : Nat) (inside : here < counts.length) :
    (counts.modify here (· + 1)).getD there 0 =
      counts.getD there 0 + if here = there then 1 else 0 := by
  rw [List.getD_eq_getElem?_getD, List.getElem?_modify]
  by_cases same : here = there
  · subst same
    simp [inside]
  · simp [same]

/-- The tallies count the items of each digit. -/
theorem tally_spec (items : List ι) (counts : List Nat)
    (below : ∀ item ∈ items, digit item < counts.length) (b : Nat) :
    (tally digit items counts).length = counts.length ∧
      (tally digit items counts).getD b 0 = counts.getD b 0 + (bucket digit items b).length := by
  induction items generalizing counts with
  | nil => simp [tally, bucket]
  | cons item rest ih =>
    have here := below item List.mem_cons_self
    obtain ⟨length, count⟩ := ih (counts.modify (digit item) (· + 1)) (fun other member => by
      simpa using below other (List.mem_cons_of_mem _ member))
    refine ⟨by simpa [tally] using length, ?_⟩
    rw [tally, List.foldl_cons]
    refine count.trans ?_
    rw [getD_increment counts _ _ here, bucket, bucket, List.filter_cons]
    by_cases same : digit item = b
    · simp [same]
      omega
    · simp [same]

/-- The sums before each count. -/
theorem exclusive_sums_spec (counts : List Nat) (position b : Nat) (inside : b < counts.length) :
    (exclusiveSums position counts).length = counts.length ∧
      (exclusiveSums position counts).getD b 0 = position + (counts.take b).sum := by
  induction counts generalizing position b with
  | nil => simp at inside
  | cons count rest ih =>
    cases b with
    | zero =>
      refine ⟨?_, by simp [exclusiveSums]⟩
      rw [exclusiveSums, List.length_cons, List.length_cons]
      cases rest with
      | nil => rfl
      | cons next rest => rw [(ih (position + count) 0 (by simp)).1]
    | succ b =>
      obtain ⟨length, sum⟩ := ih (position + count) b (by simpa using inside)
      refine ⟨by simp [exclusiveSums, length], ?_⟩
      simp only [exclusiveSums, List.getD_cons_succ, sum, List.take_succ_cons, List.sum_cons]
      omega

/-- A digit's segment ends where the next one begins. -/
theorem offset_succ (digit : ι → Nat) (items : List ι) (b : Nat) :
    offset digit items (b + 1) = offset digit items b + (bucket digit items b).length := by
  simp [offset, List.range_succ]

/-- Segments before a digit end at or before it. -/
theorem offset_le (digit : ι → Nat) (items : List ι) (a b : Nat) (before : a < b) :
    offset digit items a + (bucket digit items a).length ≤ offset digit items b := by
  induction b with
  | zero => omega
  | succ b ih =>
    rw [offset_succ]
    rcases Nat.lt_succ_iff_lt_or_eq.mp before with earlier | rfl
    · have step := ih earlier
      omega
    · exact Nat.le_refl _

/-- Positions in different segments differ, and so do different positions of one. -/
theorem position_unique (digit : ι → Nat) (items : List ι) (a b i j : Nat)
    (i_inside : i < (bucket digit items a).length)
    (j_inside : j < (bucket digit items b).length)
    (same : offset digit items a + i = offset digit items b + j) : a = b ∧ i = j := by
  rcases Nat.lt_trichotomy a b with before | rfl | after
  · have apart := offset_le digit items a b before
    omega
  · exact ⟨rfl, by omega⟩
  · have apart := offset_le digit items b a after
    omega

/-- The segments before a digit hold, in some order, the items with smaller digits. -/
theorem segments_perm (digit : ι → Nat) (items : List ι) (b : Nat) :
    ((List.range b).flatMap (bucket digit items)).Perm (items.filter (digit · < b)) := by
  induction b with
  | zero => simp
  | succ b ih =>
    have split := List.filter_append_perm (digit · < b) (items.filter (digit · < b + 1))
    have smaller : (items.filter (digit · < b + 1)).filter (digit · < b) =
        items.filter (digit · < b) := by
      rw [List.filter_filter]
      apply List.filter_congr
      intro item _
      simp only [← Bool.decide_and, decide_eq_decide]
      omega
    have equal : (items.filter (digit · < b + 1)).filter (fun item => !decide (digit item < b)) =
        bucket digit items b := by
      rw [List.filter_filter, bucket]
      apply List.filter_congr
      intro item _
      simp only [← decide_not, ← Bool.decide_and, decide_eq_decide]
      omega
    rw [smaller, equal] at split
    rw [List.range_succ, List.flatMap_append, List.flatMap_singleton]
    exact (ih.append_right _).trans split

/-- Every segment lies within the items. -/
theorem segment_inside (digit : ι → Nat) (items : List ι) (b : Nat) :
    offset digit items b + (bucket digit items b).length ≤ items.length := by
  rw [← offset_succ, offset, (segments_perm digit items (b + 1)).length_eq]
  exact List.length_filter_le _ _

/-- The tallies of a whole list sum up to the segments' first positions. -/
theorem sums_are_offsets (items : List ι) (buckets b : Nat)
    (below : ∀ item ∈ items, digit item < buckets) (inside : b < buckets) :
    (exclusiveSums 0 (tally digit items (List.replicate buckets 0))).length = buckets ∧
      (exclusiveSums 0 (tally digit items (List.replicate buckets 0))).getD b 0 =
        offset digit items b := by
  have tallied := tally_spec items (List.replicate buckets 0) (by simpa using below)
  have length : (tally digit items (List.replicate buckets 0)).length = buckets := by
    simpa using (tallied b).1
  obtain ⟨sums_length, sum⟩ := exclusive_sums_spec _ 0 b (length ▸ inside)
  refine ⟨sums_length.trans length, ?_⟩
  rw [sum, Nat.zero_add, offset, List.length_flatMap]
  congr 1
  apply List.ext_getElem
  · simp [length, Nat.le_of_lt inside]
  · intro i left _
    simp only [List.length_take, length] at left
    have bound : i < buckets := by omega
    have count := (tallied i).2
    rw [List.getD_eq_getElem _ _ (by omega)] at count
    simp [count, bound]

/-- The state of a pass whose items so far are `done`, out of `items`: every
    digit's position follows its items placed so far, and they stand in its
    segment in order. -/
structure Placed (digit : ι → Nat) (buckets : Nat) (items done : List ι)
    (state : List ι × List Nat) : Prop where
  scratch : state.1.length = items.length
  positions : state.2.length = buckets
  position : ∀ b < buckets,
    state.2.getD b 0 = offset digit items b + (bucket digit done b).length
  stored : ∀ b < buckets, ∀ j < (bucket digit done b).length,
    state.1[offset digit items b + j]? = (bucket digit done b)[j]?

/-- One more item extends its digit's segment and no other. -/
theorem placed_step (buckets : Nat) (items done rest : List ι) (item : ι)
    (state : List ι × List Nat) (split : items = done ++ item :: rest)
    (below : digit item < buckets) (placed : Placed digit buckets items done state) :
    Placed digit buckets items (done ++ [item])
      (state.1.set (state.2.getD (digit item) 0) item,
        state.2.modify (digit item) (· + 1)) := by
  have grown : ∀ b, bucket digit (done ++ [item]) b =
      bucket digit done b ++ if digit item = b then [item] else [] := by
    intro b
    by_cases same : digit item = b <;> simp [bucket, same]
  have room : ∀ b, (bucket digit (done ++ [item]) b).length ≤ (bucket digit items b).length := by
    intro b
    rw [split, show done ++ item :: rest = (done ++ [item]) ++ rest by simp]
    rw [bucket, bucket, List.filter_append (done ++ [item]) rest, List.length_append]
    omega
  have here := placed.position (digit item) below
  have length_here : (bucket digit (done ++ [item]) (digit item)).length =
      (bucket digit done (digit item)).length + 1 := by
    simp [grown]
  refine ⟨by simpa using placed.scratch, by simpa using placed.positions, ?_, ?_⟩
  · intro b inside
    rw [getD_increment _ _ _ (by rw [placed.positions]; exact below), placed.position b inside,
      grown]
    by_cases same : digit item = b
    · simp [same]
      omega
    · simp [same]
  · intro b inside j bound
    rw [here]
    by_cases last : b = digit item ∧ j = (bucket digit done (digit item)).length
    · obtain ⟨rfl, rfl⟩ := last
      have in_segment := room (digit item)
      have segment_end := segment_inside digit items (digit item)
      rw [List.getElem?_set_self (by rw [placed.scratch]; omega), grown]
      simp
    · have earlier : j < (bucket digit done b).length := by
        rw [grown] at bound
        by_cases same : digit item = b
        · subst same
          simp at bound
          omega
        · simpa [same] using bound
      have apart : offset digit items (digit item) + (bucket digit done (digit item)).length ≠
          offset digit items b + j := by
        intro same
        obtain ⟨same_bucket, same_place⟩ := position_unique digit items _ _ _ _
          (Nat.lt_of_lt_of_le (by omega) (room (digit item)))
          (Nat.lt_of_lt_of_le bound (room b)) same
        exact last ⟨same_bucket.symm, by rw [same_place]⟩
      rw [List.getElem?_set_ne apart, placed.stored b inside j earlier, grown,
        List.getElem?_append_left earlier]

/-- Placing the rest of the items completes the placement. -/
theorem placed_run (buckets : Nat) (items rest done : List ι) (state : List ι × List Nat)
    (split : items = done ++ rest) (below : ∀ item ∈ items, digit item < buckets)
    (placed : Placed digit buckets items done state) :
    Placed digit buckets items items (placeItems digit rest state.1 state.2) := by
  induction rest generalizing done state with
  | nil =>
    rw [List.append_nil] at split
    rw [← split] at placed
    exact placed
  | cons item rest ih =>
    have here : digit item < buckets := below item (by rw [split]; simp)
    exact ih (done ++ [item]) _ (by simpa using split)
      (placed_step buckets items done rest item state split here placed)

/-- Placing the items is writing them, one after the other, to these positions. -/
theorem place_items_writes (items scratch : List ι) (positions : List Nat) :
    (placeItems digit items scratch positions).1 =
      ((writePositions digit items positions).zip items).foldl
        (fun scratch write => scratch.set write.1 write.2) scratch := by
  induction items generalizing scratch positions with
  | nil => rfl
  | cons item rest ih =>
    rw [writePositions, List.zip_cons_cons, List.foldl_cons]
    exact ih _ _

/-- An item about to be placed has its own place within the items. -/
theorem placed_inside (buckets : Nat) (items done rest : List ι) (item : ι)
    (state : List ι × List Nat) (split : items = done ++ item :: rest)
    (below : digit item < buckets) (placed : Placed digit buckets items done state) :
    state.2.getD (digit item) 0 < items.length := by
  have reached := placed.position (digit item) below
  have segment := segment_inside digit items (digit item)
  have waiting : (bucket digit items (digit item)).length =
      (bucket digit done (digit item)).length +
        (bucket digit (item :: rest) (digit item)).length := by
    rw [split, bucket, List.filter_append, List.length_append]
    rfl
  have itself : 0 < (bucket digit (item :: rest) (digit item)).length := by
    simp [bucket]
  omega

/-- Placing the rest of the items writes within them. -/
theorem write_positions_run (buckets : Nat) (items rest done : List ι) (state : List ι × List Nat)
    (split : items = done ++ rest) (below : ∀ item ∈ items, digit item < buckets)
    (placed : Placed digit buckets items done state) :
    ∀ position ∈ writePositions digit rest state.2, position < items.length := by
  induction rest generalizing done state with
  | nil => simp [writePositions]
  | cons item rest ih =>
    have here : digit item < buckets := below item (by rw [split]; simp)
    have later := ih (done ++ [item]) _ (by simpa using split)
      (placed_step buckets items done rest item state split here placed)
    intro position member
    rw [writePositions] at member
    rcases List.mem_cons.mp member with rfl | next
    · exact placed_inside buckets items done rest item state split here placed
    · exact later position next

/-- A list whose segments are all known is their concatenation. -/
theorem segments_concat (buckets : Nat) (items : List ι) (state : List ι × List Nat)
    (placed : Placed digit buckets items items state) (b : Nat) (inside : b ≤ buckets) :
    state.1.take (offset digit items b) = (List.range b).flatMap (bucket digit items) := by
  induction b with
  | zero => simp [offset]
  | succ b ih =>
    have segment : (state.1.drop (offset digit items b)).take (bucket digit items b).length =
        bucket digit items b := by
      apply List.ext_getElem?
      intro j
      rw [List.getElem?_take]
      by_cases bound : j < (bucket digit items b).length
      · rw [if_pos bound, List.getElem?_drop, placed.stored b (by omega) j bound]
      · rw [if_neg bound, List.getElem?_eq_none (by omega)]
    rw [offset_succ, List.take_add, ih (by omega), segment, List.range_succ, List.flatMap_append,
      List.flatMap_singleton]

/-- Before the first item nothing is placed, and every position is the first of its
    segment. -/
theorem placed_start (digit : ι → Nat) (buckets : Nat) (items scratch : List ι)
    (below : ∀ item ∈ items, digit item < buckets) (length : scratch.length = items.length) :
    Placed digit buckets items []
      (scratch, exclusiveSums 0 (tally digit items (List.replicate buckets 0))) := by
  refine ⟨length, ?_, ?_, ?_⟩
  · rcases Nat.eq_zero_or_pos buckets with rfl | positive
    · have empty : items = [] := by
        cases items with
        | nil => rfl
        | cons item rest => exact absurd (below item List.mem_cons_self) (Nat.not_lt_zero _)
      subst empty
      rfl
    · exact (sums_are_offsets items buckets 0 below positive).1
  · intro b inside
    simpa [bucket] using (sums_are_offsets items buckets b below inside).2
  · intro b _ j bound
    simp [bucket] at bound

/-- A counting pass writes within the items. -/
theorem write_positions_inside (digit : ι → Nat) (buckets : Nat) (items scratch : List ι)
    (below : ∀ item ∈ items, digit item < buckets) (length : scratch.length = items.length) :
    ∀ position ∈ writePositions digit items
      (exclusiveSums 0 (tally digit items (List.replicate buckets 0))),
      position < items.length :=
  write_positions_run buckets items items [] _ rfl below
    (placed_start digit buckets items scratch below length)

/-- A counting pass lists the items of each digit in their old order, one digit
    after the other. -/
theorem counting_pass_buckets (digit : ι → Nat) (buckets : Nat) (items scratch : List ι)
    (below : ∀ item ∈ items, digit item < buckets) (length : scratch.length = items.length) :
    countingPass digit buckets items scratch =
      (List.range buckets).flatMap (bucket digit items) := by
  have starts := placed_start digit buckets items scratch below length
  have ends := placed_run buckets items items [] _ rfl below starts
  have all : (items.filter (digit · < buckets)) = items :=
    List.filter_eq_self.mpr fun item member => by simpa using below item member
  have whole : offset digit items buckets = items.length := by
    rw [offset, (segments_perm digit items buckets).length_eq, all]
  rw [← segments_concat buckets items _ ends buckets (Nat.le_refl _), whole]
  exact (List.take_of_length_le (Nat.le_of_eq ends.scratch)).symm

/-- A counting pass permutes the items. -/
theorem counting_pass_perm (digit : ι → Nat) (buckets : Nat) (items scratch : List ι)
    (below : ∀ item ∈ items, digit item < buckets) (length : scratch.length = items.length) :
    (countingPass digit buckets items scratch).Perm items := by
  rw [counting_pass_buckets digit buckets items scratch below length]
  have all : (items.filter (digit · < buckets)) = items :=
    List.filter_eq_self.mpr fun item member => by simpa using below item member
  have perm := segments_perm digit items buckets
  rwa [all] at perm

/-- A counting pass sorts by the digit and keeps whatever order the items with one
    digit had. -/
theorem counting_pass_sorted (digit : ι → Nat) (buckets : Nat) (items scratch : List ι)
    (below : ∀ item ∈ items, digit item < buckets) (length : scratch.length = items.length)
    (earlier : ι → ι → Prop) (ordered : items.Pairwise earlier) :
    (countingPass digit buckets items scratch).Pairwise fun x y =>
      digit x < digit y ∨ (digit x = digit y ∧ earlier x y) := by
  rw [counting_pass_buckets digit buckets items scratch below length, List.pairwise_flatMap]
  have in_bucket : ∀ b, ∀ x ∈ bucket digit items b, digit x = b := fun b x member => by
    simpa using (List.mem_filter.mp member).2
  constructor
  · intro b _
    apply (ordered.filter (digit · = b)).imp_of_mem
    intro x y x_member y_member before
    exact Or.inr ⟨(in_bucket b x x_member).trans (in_bucket b y y_member).symm, before⟩
  · apply List.pairwise_lt_range.imp
    intro a b smaller x x_member y y_member
    rw [in_bucket a x x_member, in_bucket b y y_member]
    exact Or.inl smaller

end CuckatooMiner.CountingPass
