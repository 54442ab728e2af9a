import Mathlib
import CuckatooMiner.Foundation.CountingPass

/-!
# Slots in ranges of one array

Threads sort items into ranges of one array. Each item atomically increments the counter
of its bucket, which returns the slot reserved for it, and is stored at that slot of the
bucket's range. Counters are machine words of some modulus; the order of the items is
that of the reservations, and any order is possible.

As long as no counter wraps, a bucket's items take the slots from its counter on, one
after the other, whatever the ranges. Where the ranges follow one another and each has
room for its bucket, no two items share a place, and each range then starts with the
items of its bucket.
-/

namespace CuckatooMiner.SlotRanges

open CountingPass (bucket offset offset_succ segments_perm)

universe u
variable {ι : Type u} (digit : ι → Nat) (modulus : Nat)

/-- Count one item. -/
def increment (counts : List Nat) (item : ι) : List Nat :=
  counts.modify (digit item) fun count => (count + 1) % modulus

/-- The counters after counting some items. -/
def tallies (items : List ι) (counts : List Nat) : List Nat :=
  items.foldl (increment digit modulus) counts

/-- The items, each with the slot that was reserved for it. -/
def reserved : List ι → List Nat → List (ι × Nat)
  | [], _ => []
  | item :: rest, counts =>
      (item, counts.getD (digit item) 0) :: reserved rest (increment digit modulus counts item)

/-- Store items at the places of their slots. -/
def place (position : Nat → Nat → Nat) (stores : List (ι × Nat)) (arena : List ι) : List ι :=
  stores.foldl (fun arena store => arena.set (position (digit store.1) store.2) store.1) arena

variable {digit modulus}

/-! ## Counters -/

/-- Counting an item keeps the number of counters. -/
@[simp] theorem increment_length (counts : List Nat) (item : ι) :
    (increment digit modulus counts item).length = counts.length := List.length_modify ..

/-- Counting items keeps the number of counters. -/
@[simp] theorem tallies_length (items : List ι) (counts : List Nat) :
    (tallies digit modulus items counts).length = counts.length := by
  induction items generalizing counts with
  | nil => rfl
  | cons item rest ih => exact (ih _).trans (increment_length counts item)

/-- A counter after counting an item. -/
theorem increment_getD (counts : List Nat) (item : ι) (b : Nat)
    (inside : b < counts.length) :
    (increment digit modulus counts item).getD b 0 =
      if digit item = b then (counts.getD b 0 + 1) % modulus
      else counts.getD b 0 := by
  rw [increment, List.getD_eq_getElem?_getD, List.getElem?_modify, List.getElem?_eq_getElem inside,
    List.getD_eq_getElem _ _ inside]
  split <;> rfl

/-- One more item joins its bucket. -/
theorem bucket_cons (item : ι) (rest : List ι) (b : Nat) :
    bucket digit (item :: rest) b =
      if digit item = b then item :: bucket digit rest b
      else bucket digit rest b := by
  simp only [bucket, List.filter_cons, decide_eq_true_eq]

/-- A counter counts the items of its bucket, up to the modulus. -/
theorem tallies_getD (items : List ι) (counts : List Nat) (b : Nat)
    (inside : b < counts.length) (small : counts.getD b 0 < modulus) :
    (tallies digit modulus items counts).getD b 0 =
      (counts.getD b 0 + (bucket digit items b).length) % modulus := by
  induction items generalizing counts with
  | nil => exact (Nat.mod_eq_of_lt small).symm
  | cons item rest ih =>
    have step : (increment digit modulus counts item).getD b 0 = _ :=
      increment_getD counts item b inside
    have later := ih (increment digit modulus counts item) (by rwa [increment_length]) (by
      rw [step]
      split
      · exact Nat.mod_lt _ (Nat.zero_lt_of_lt small)
      · exact small)
    rw [tallies, List.foldl_cons, ← tallies, later, step, bucket_cons]
    split
    · rw [List.length_cons, Nat.mod_add_mod]
      congr 1
      omega
    · rfl

/-- Counters of lists that follow one another. -/
theorem tallies_append (left right : List ι) (counts : List Nat) :
    tallies digit modulus (left ++ right) counts =
      tallies digit modulus right (tallies digit modulus left counts) := List.foldl_append

/-! ## Counters that start at zero -/

/-- A cleared counter is zero. -/
theorem cleared_getD (buckets b : Nat) : (List.replicate buckets 0).getD b 0 = 0 := by
  rw [List.getD_eq_getElem?_getD, List.getElem?_replicate]
  split <;> rfl

/-- A bucket has no more items than there are. -/
theorem bucket_length_le (items : List ι) (b : Nat) :
    (bucket digit items b).length ≤ items.length := List.length_filter_le ..

/-- A cleared counter ends at the number of items of its bucket. -/
theorem tallies_zero_getD {buckets : Nat} (items : List ι) (few : items.length < modulus) (b : Nat)
    (inside : b < buckets) :
    (tallies digit modulus items (List.replicate buckets 0)).getD b 0 =
      (bucket digit items b).length := by
  have positive : 0 < modulus := Nat.zero_lt_of_lt few
  rw [tallies_getD items _ b (by rwa [List.length_replicate]) (by rwa [cleared_getD]),
    cleared_getD, Nat.zero_add, Nat.mod_eq_of_lt (Nat.lt_of_le_of_lt (bucket_length_le items b) few)]

/-- Cleared counters sum up to the starts of segments that follow one another. -/
theorem tallies_zero_take {buckets : Nat} (items : List ι) (few : items.length < modulus) (b : Nat)
    (inside : b ≤ buckets) :
    ((tallies digit modulus items (List.replicate buckets 0)).take b).sum =
      offset digit items b := by
  induction b with
  | zero => rfl
  | succ b ih =>
    have counter : (tallies digit modulus items (List.replicate buckets 0)).getD b 0 = _ :=
      tallies_zero_getD items few b inside
    have length : b < (tallies digit modulus items (List.replicate buckets 0)).length := by
      rwa [tallies_length, List.length_replicate]
    rw [List.getD_eq_getElem _ _ length] at counter
    rw [List.take_succ_eq_append_getElem length, List.sum_append, List.sum_singleton,
      ih (Nat.le_of_lt inside), counter, offset_succ]

/-- The segments of all items end with the last item. -/
theorem offset_all {buckets : Nat} (items : List ι) (below : ∀ item ∈ items, digit item < buckets) :
    offset digit items buckets = items.length := by
  rw [offset, (segments_perm digit items buckets).length_eq]
  exact congrArg List.length (List.filter_eq_self.mpr fun item member => by
    simpa using below item member)

/-- Cleared counters sum up to the number of items. -/
theorem tallies_zero_sum {buckets : Nat} (items : List ι) (few : items.length < modulus)
    (below : ∀ item ∈ items, digit item < buckets) :
    (tallies digit modulus items (List.replicate buckets 0)).sum = items.length := by
  rw [← offset_all items below, ← tallies_zero_take items few buckets (Nat.le_refl _),
    List.take_of_length_le (by rw [tallies_length, List.length_replicate])]

/-- Cleared counters end the same for every order of the items. -/
theorem tallies_zero_perm {buckets : Nat} {left right : List ι} (perm : left.Perm right)
    (few : left.length < modulus) :
    tallies digit modulus left (List.replicate buckets 0) =
      tallies digit modulus right (List.replicate buckets 0) := by
  apply List.ext_getElem
  · rw [tallies_length, tallies_length]
  · intro b left_inside right_inside
    have inside : b < buckets := by rwa [tallies_length, List.length_replicate] at left_inside
    have sizes : (bucket digit left b).length = (bucket digit right b).length :=
      (perm.filter _).length_eq
    have counts : (tallies digit modulus left (List.replicate buckets 0)).getD b 0 = _ :=
      tallies_zero_getD left few b inside
    rw [sizes, ← tallies_zero_getD right (perm.length_eq ▸ few) b inside] at counts
    rwa [List.getD_eq_getElem _ _ left_inside, List.getD_eq_getElem _ _ right_inside] at counts

/-! ## Slots -/

/-- Slots of lists that follow one another. -/
theorem reserved_append (left right : List ι) (counts : List Nat) :
    reserved digit modulus (left ++ right) counts = reserved digit modulus left counts ++
      reserved digit modulus right (tallies digit modulus left counts) := by
  induction left generalizing counts with
  | nil => rfl
  | cons item rest ih => rw [List.cons_append, reserved, ih, reserved, List.cons_append]; rfl

/-- No counter wraps while the items are counted. -/
def Fits (digit : ι → Nat) (modulus : Nat) (items : List ι) (counts : List Nat) : Prop :=
  ∀ b < counts.length,
    counts.getD b 0 + (bucket digit items b).length < modulus

/-- Few items make no cleared counter wrap. -/
theorem fits_of_length {buckets : Nat} (items : List ι) (few : items.length < modulus) :
    Fits digit modulus items (List.replicate buckets 0) := by
  intro b _
  rw [cleared_getD, Nat.zero_add]
  exact Nat.lt_of_le_of_lt (bucket_length_le items b) few

/-- The rest of the items fits if all do. -/
theorem Fits.tail {item : ι} {rest : List ι} {counts : List Nat}
    (fits : Fits digit modulus (item :: rest) counts) :
    Fits digit modulus rest (increment digit modulus counts item) := by
  intro b inside
  rw [increment_length] at inside
  have room := fits b inside
  rw [bucket_cons] at room
  rw [increment_getD counts item b inside]
  split
  · rename_i here
    rw [if_pos here, List.length_cons] at room
    rw [Nat.mod_eq_of_lt (by omega)]
    omega
  · rename_i elsewhere
    rwa [if_neg elsewhere] at room

/-- The items of a bucket take the slots from its counter on, in their order. -/
theorem reserved_in_bucket (items : List ι) (counts : List Nat)
    (fits : Fits digit modulus items counts) (b : Nat) (inside : b < counts.length) :
    (reserved digit modulus items counts).filter (fun store => digit store.1 = b) =
      (bucket digit items b).zipIdx (counts.getD b 0) := by
  induction items generalizing counts with
  | nil => rfl
  | cons item rest ih =>
    have later := ih _ fits.tail (by rwa [increment_length])
    have room := fits b inside
    rw [increment_getD counts item b inside] at later
    rw [bucket_cons] at room ⊢
    rw [reserved, List.filter_cons, later]
    by_cases here : digit item = b
    · rw [if_pos here, List.length_cons] at room
      subst here
      rw [if_pos rfl, Nat.mod_eq_of_lt (by omega)]
      simp only [decide_true, if_true, List.zipIdx_cons]
    · simp only [here, decide_false, Bool.false_eq_true, if_false]

/-- An item with its slot is the item at that place of its bucket. -/
theorem mem_reserved (items : List ι) (counts : List Nat) (fits : Fits digit modulus items counts)
    (item : ι) (slot : Nat) (inside : digit item < counts.length) :
    (item, slot) ∈ reserved digit modulus items counts ↔
      counts.getD (digit item) 0 ≤ slot ∧
        (bucket digit items (digit item))[slot - counts.getD (digit item) 0]? = some item := by
  have listed := congrArg ((item, slot) ∈ ·) (reserved_in_bucket items counts fits _ inside)
  simp only [List.mem_filter, decide_true, and_true, eq_iff_iff] at listed
  rw [listed, List.mem_zipIdx_iff_le_and_getElem?_sub]

/-- Of two items of a bucket, the first takes the smaller slot. -/
theorem reserved_pairwise (items : List ι) (counts : List Nat)
    (fits : Fits digit modulus items counts) (below : ∀ item ∈ items, digit item < counts.length) :
    (reserved digit modulus items counts).Pairwise fun first second =>
      digit first.1 = digit second.1 → first.2 < second.2 := by
  induction items generalizing counts with
  | nil => exact List.Pairwise.nil
  | cons item rest ih =>
    have here := below item List.mem_cons_self
    rw [reserved, List.pairwise_cons]
    refine ⟨?_, ih _ fits.tail fun other member => ?_⟩
    · rintro ⟨other, slot⟩ later same
      simp only at same ⊢
      have inside : digit other < (increment digit modulus counts item).length := by
        rwa [increment_length, ← same]
      have slot_from := ((mem_reserved rest _ fits.tail other slot inside).mp later).1
      have room := fits (digit item) here
      rw [bucket_cons, if_pos rfl, List.length_cons] at room
      rw [increment_length] at inside
      rw [increment_getD counts item _ inside, if_pos same, ← same,
        Nat.mod_eq_of_lt (by omega)] at slot_from
      exact slot_from
    · rw [increment_length]
      exact below other (List.mem_cons_of_mem _ member)

/-- The items are those given. -/
theorem reserved_items (items : List ι) (counts : List Nat) :
    (reserved digit modulus items counts).map Prod.fst = items := by
  induction items generalizing counts with
  | nil => rfl
  | cons item rest ih => rw [reserved, List.map_cons, ih]

/-- From cleared counters, an item with its slot is the item at that place of its bucket. -/
theorem mem_reserved_zero {buckets : Nat} (items : List ι)
    (fits : Fits digit modulus items (List.replicate buckets 0)) (item : ι) (slot : Nat)
    (inside : digit item < buckets) :
    (item, slot) ∈ reserved digit modulus items (List.replicate buckets 0) ↔
      (bucket digit items (digit item))[slot]? = some item := by
  rw [mem_reserved items _ fits item slot (by rwa [List.length_replicate]), cleared_getD,
    Nat.sub_zero]
  exact and_iff_right (Nat.zero_le slot)

/-- From cleared counters, an item's slot is within the number of items of its bucket. -/
theorem reserved_slot {buckets : Nat} (items : List ι)
    (fits : Fits digit modulus items (List.replicate buckets 0))
    (below : ∀ item ∈ items, digit item < buckets) (store : ι × Nat)
    (member : store ∈ reserved digit modulus items (List.replicate buckets 0)) :
    store.1 ∈ items ∧ store.2 < (bucket digit items (digit store.1)).length := by
  have all : (reserved digit modulus items (List.replicate buckets 0)).map Prod.fst = items :=
    reserved_items items _
  have listed : store.1 ∈ items := by
    rw [← all]
    exact List.mem_map_of_mem member
  have found := (mem_reserved_zero items fits store.1 store.2 (below _ listed)).mp member
  exact ⟨listed, (List.getElem?_eq_some_iff.mp found).1⟩

/-! ## Places -/

variable {position : Nat → Nat → Nat}

/-- Storing items keeps the length of the array. -/
@[simp] theorem place_length (stores : List (ι × Nat)) (arena : List ι) :
    (place digit position stores arena).length = arena.length := by
  induction stores generalizing arena with
  | nil => rfl
  | cons store rest ih => exact (ih _).trans (List.length_set ..)

/-- Stores that follow one another. -/
theorem place_append (left right : List (ι × Nat)) (arena : List ι) :
    place digit position (left ++ right) arena =
      place digit position right (place digit position left arena) := List.foldl_append

/-- A place that no store touches keeps its item. -/
theorem place_untouched (stores : List (ι × Nat)) (arena : List ι) (index : Nat)
    (elsewhere : ∀ store ∈ stores, position (digit store.1) store.2 ≠ index) :
    (place digit position stores arena)[index]? = arena[index]? := by
  induction stores generalizing arena with
  | nil => rfl
  | cons store rest ih =>
    rw [place, List.foldl_cons, ← place,
      ih _ fun other member => elsewhere other (List.mem_cons_of_mem _ member),
      List.getElem?_set_ne (elsewhere store List.mem_cons_self)]

/-- Stores to different places are all found. -/
theorem place_found (stores : List (ι × Nat)) (arena : List ι)
    (apart : stores.Pairwise fun first second =>
      position (digit first.1) first.2 ≠ position (digit second.1) second.2)
    (store : ι × Nat) (member : store ∈ stores)
    (inside : position (digit store.1) store.2 < arena.length) :
    (place digit position stores arena)[position (digit store.1) store.2]? = some store.1 := by
  induction stores generalizing arena with
  | nil => cases member
  | cons first rest ih =>
    obtain ⟨different, rest_apart⟩ := List.pairwise_cons.mp apart
    rw [place, List.foldl_cons, ← place]
    rcases List.mem_cons.mp member with rfl | later
    · rw [place_untouched rest _ _ fun other in_rest => (different other in_rest).symm,
        List.getElem?_set_self inside]
    · exact ih _ rest_apart later (by rwa [List.length_set])

/-! ## Ranges -/

/-- Ranges of one array that follow one another. They may leave gaps between them. -/
structure Ranges (buckets size : Nat) (start room : Nat → Nat) : Prop where
  next : ∀ b < buckets, start b + room b ≤ start (b + 1)
  last : start buckets ≤ size

variable {buckets size : Nat} {start room : Nat → Nat}

/-- Segments that follow one another are ranges of an array that has room for all items. -/
theorem segment_ranges (items : List ι) (below : ∀ item ∈ items, digit item < buckets)
    (enough : items.length ≤ size) :
    Ranges buckets size (offset digit items) fun b => (bucket digit items b).length :=
  ⟨fun b _ => Nat.le_of_eq (offset_succ digit items b).symm, by rwa [offset_all items below]⟩

/-- A range ends before a later one begins. -/
theorem Ranges.before (ranges : Ranges buckets size start room) (left right : Nat)
    (inside : right ≤ buckets) (earlier : left < right) :
    start left + room left ≤ start right := by
  induction right with
  | zero => cases earlier
  | succ right ih =>
    have next := ranges.next right inside
    rcases Nat.lt_succ_iff_lt_or_eq.mp earlier with further | rfl
    · have up_to := ih (Nat.le_of_succ_le inside) further
      omega
    · exact next

/-- A range ends within the array. -/
theorem Ranges.within (ranges : Ranges buckets size start room) (b : Nat)
    (inside : b < buckets) : start b + room b ≤ size :=
  (ranges.before b buckets (Nat.le_refl _) inside).trans ranges.last

/-- Places in two ranges differ, and so do two places of one range. -/
theorem Ranges.place_unique (ranges : Ranges buckets size start room) (left right s t : Nat)
    (left_inside : left < buckets) (right_inside : right < buckets) (s_inside : s < room left)
    (t_inside : t < room right) (same : start left + s = start right + t) :
    left = right ∧ s = t := by
  rcases Nat.lt_trichotomy left right with earlier | rfl | later
  · have apart := ranges.before left right (Nat.le_of_lt right_inside) earlier
    omega
  · exact ⟨rfl, Nat.add_left_cancel same⟩
  · have apart := ranges.before right left (Nat.le_of_lt left_inside) later
    omega

/-- Stores of reserved slots that have room go to different places. -/
theorem reserved_apart (ranges : Ranges buckets size start room) (items : List ι)
    (fits : Fits digit modulus items (List.replicate buckets 0))
    (below : ∀ item ∈ items, digit item < buckets)
    (positions : ∀ b < buckets, ∀ slot < room b,
      position b slot = start b + slot)
    (stores : List (ι × Nat))
    (some_reserved : stores.Sublist (reserved digit modulus items (List.replicate buckets 0)))
    (with_room : ∀ store ∈ stores, digit store.1 < buckets ∧ store.2 < room (digit store.1)) :
    stores.Pairwise fun first second =>
      position (digit first.1) first.2 ≠ position (digit second.1) second.2 := by
  have ascending := (reserved_pairwise items _ fits (by rwa [List.length_replicate])).sublist
    some_reserved
  refine ascending.imp_of_mem ?_
  intro first second first_member second_member smaller same
  obtain ⟨first_inside, first_room⟩ := with_room first first_member
  obtain ⟨second_inside, second_room⟩ := with_room second second_member
  rw [positions _ first_inside _ first_room, positions _ second_inside _ second_room] at same
  obtain ⟨same_bucket, same_slot⟩ := ranges.place_unique _ _ _ _ first_inside second_inside
    first_room second_room same
  exact absurd (smaller same_bucket) (by omega)

/-- A range with room for its bucket starts with the items of the bucket, in the order of
    their reservations. -/
theorem place_reserved (ranges : Ranges buckets size start room) (items : List ι)
    (fits : Fits digit modulus items (List.replicate buckets 0))
    (below : ∀ item ∈ items, digit item < buckets)
    (positions : ∀ b < buckets, ∀ slot < room b,
      position b slot = start b + slot)
    (enough : ∀ b < buckets, (bucket digit items b).length ≤ room b)
    (arena : List ι) (length : arena.length = size) (b : Nat) (inside : b < buckets) :
    ((place digit position (reserved digit modulus items (List.replicate buckets 0)) arena).drop
      (start b)).take (bucket digit items b).length = bucket digit items b := by
  have with_room : ∀ store ∈ reserved digit modulus items (List.replicate buckets 0),
      digit store.1 < buckets ∧ store.2 < room (digit store.1) := by
    intro store member
    obtain ⟨listed, slot_inside⟩ := reserved_slot items fits below store member
    have here := below store.1 listed
    exact ⟨here, Nat.lt_of_lt_of_le slot_inside (enough _ here)⟩
  have apart := reserved_apart ranges items fits below positions _ (List.Sublist.refl _) with_room
  apply List.ext_getElem?
  intro slot
  rw [List.getElem?_take]
  split
  · rename_i slot_inside
    have has_room := Nat.lt_of_lt_of_le slot_inside (enough b inside)
    have here : digit (bucket digit items b)[slot] = b := by
      simpa using (List.mem_filter.mp (List.getElem_mem slot_inside)).2
    have member := (mem_reserved_zero items fits (bucket digit items b)[slot] slot
      (here ▸ inside)).mpr (by
        rw [here]
        exact List.getElem?_eq_getElem slot_inside)
    have found := place_found _ arena apart _ member (by
      have within := ranges.within b inside
      rw [here, positions b inside slot has_room, length]
      omega)
    rw [here, positions b inside slot has_room] at found
    rw [List.getElem?_drop, found, List.getElem?_eq_getElem slot_inside]
  · rename_i slot_outside
    rw [List.getElem?_eq_none (Nat.le_of_not_lt slot_outside)]

end CuckatooMiner.SlotRanges
