import Mathlib

/-!
# Slots reserved by atomic counters

Threads sort items into buckets of one capacity. Each item atomically increments the
counter of its bucket, which returns the slot reserved for it; an item whose slot lies
beyond the capacity increments an overflow counter instead of being stored. The order
of the reservations is that of the list of items, and any order is possible.

A layout says where counters, slots and overflow counters lie in memory, and that they
do not overlap. Starting from cleared counters, every counter ends at the size of its
bucket. A bucket holds its first items, up to its capacity, in the order of their
reservations; one beyond it has incremented its overflow counter, which counts exactly
the items beyond the capacity where all buckets share it. Overflow counters never
decrease, and no other memory changes.

A group of threads may count its own items first and reserve slots for all of a bucket
at once. This is the same as reserving them one by one. An item may also take two
words; the two are seen as one by pairing their numbers.
-/

namespace CuckatooMiner.Reservation

variable {Addr : Type}

/-- The words of a memory, by address. -/
structure Memory (Addr : Type) where
  read : Addr → Nat

/-- Write one word. -/
def Memory.write [DecidableEq Addr] (memory : Memory Addr) (addr : Addr) (value : Nat) : Memory Addr :=
  ⟨Function.update memory.read addr value⟩

@[simp] theorem Memory.read_write_self [DecidableEq Addr] (memory : Memory Addr) (addr : Addr)
    (value : Nat) : (memory.write addr value).read addr = value :=
  Function.update_self ..

@[simp] theorem Memory.read_write_of_ne [DecidableEq Addr] {addr other : Addr}
    (different : other ≠ addr) (value : Nat) (memory : Memory Addr) :
    (memory.write addr value).read other = memory.read other :=
  Function.update_of_ne different ..

/-- Where the buckets lie. Buckets may share an overflow counter. -/
structure Layout (Addr : Type) where
  buckets : Nat
  capacity : Nat
  count : Nat → Addr
  entry : Nat → Nat → Addr
  overflow : Nat → Addr
  count_injective : ∀ b < buckets, ∀ c < buckets, count b = count c → b = c
  entry_injective : ∀ b < buckets, ∀ s < capacity, ∀ c < buckets, ∀ t < capacity,
    entry b s = entry c t → b = c ∧ s = t
  count_ne_entry : ∀ b < buckets, ∀ c < buckets, ∀ s < capacity, count b ≠ entry c s
  count_ne_overflow : ∀ b < buckets, ∀ c < buckets, count b ≠ overflow c
  entry_ne_overflow : ∀ b < buckets, ∀ s < capacity, ∀ c < buckets, entry b s ≠ overflow c

/-- Slots of different buckets or places are different. -/
theorem slot_unique (capacity left right s t : Nat) (left_small : s < capacity)
    (right_small : t < capacity) (same : left * capacity + s = right * capacity + t) :
    left = right ∧ s = t := by
  have bucket : left = right := by
    have quotients := congrArg (· / capacity) same
    simp only [Nat.mul_comm _ capacity, Nat.mul_add_div (Nat.zero_lt_of_lt left_small),
      Nat.div_eq_of_lt left_small, Nat.div_eq_of_lt right_small, Nat.add_zero] at quotients
    exact quotients
  subst bucket
  exact ⟨rfl, Nat.add_left_cancel same⟩

/-- An order in which threads take the items of a dispatch. Any permutation is one, and it may
    depend on the items. -/
structure Schedule where
  order : List Nat → List Nat
  perm : ∀ items, (order items).Perm items

/-- Taking the items as they are listed is an order. -/
theorem listed_perm (items : List Nat) : (id items).Perm items := List.Perm.refl items

/-- Reserve a slot for an item, given with its bucket, and store it there. -/
def reserve [DecidableEq Addr] (layout : Layout Addr) (memory : Memory Addr) (item : Nat × Nat) :
    Memory Addr :=
  let (bucket, value) := item
  let slot := memory.read (layout.count bucket)
  let memory := memory.write (layout.count bucket) (slot + 1)
  if slot < layout.capacity then memory.write (layout.entry bucket slot) value
  else memory.write (layout.overflow bucket) (memory.read (layout.overflow bucket) + 1)

/-- The items that a bucket holds. -/
def stored (layout : Layout Addr) (memory : Memory Addr) (bucket : Nat) : List Nat :=
  let count := min (memory.read (layout.count bucket)) layout.capacity
  (List.range count).map fun slot => memory.read (layout.entry bucket slot)

/-- The items that ask for a bucket, in their order. -/
def valuesIn (bucket : Nat) (items : List (Nat × Nat)) : List Nat :=
  (items.filter fun item => item.1 = bucket).map Prod.snd

/-- An item asks for its own bucket. -/
theorem mem_values_in (bucket value : Nat) (items : List (Nat × Nat)) :
    value ∈ valuesIn bucket items ↔ (bucket, value) ∈ items := by
  simp only [valuesIn, List.mem_map, List.mem_filter, decide_eq_true_eq, Prod.exists,
    exists_eq_right]

/-- Values that ask for the bucket of their key. -/
theorem mem_keyed (key : Nat → Nat) (values : List Nat) (bucket value : Nat) :
    (bucket, value) ∈ values.map (fun value => (key value, value)) ↔
      value ∈ values ∧ key value = bucket := by
  rw [List.mem_map]
  constructor
  · rintro ⟨source, member, same⟩
    rw [Prod.mk.injEq] at same
    obtain ⟨here, rfl⟩ := same
    exact ⟨member, here⟩
  · rintro ⟨member, here⟩
    exact ⟨value, member, by rw [here]⟩

/-- One more item joins its bucket. -/
theorem values_in_snoc (bucket other value : Nat) (items : List (Nat × Nat)) :
    valuesIn other (items ++ [(bucket, value)]) =
      if bucket = other then valuesIn other items ++ [value] else valuesIn other items := by
  unfold valuesIn
  by_cases here : bucket = other
  · simp [here]
  · simp [here]

/-- The memory after reserving slots for a list of items. Only the items that found a slot are
    stored, and by how much the overflow counter grows is said apart. -/
structure Filled (layout : Layout Addr) (before memory : Memory Addr) (items : List (Nat × Nat)) :
    Prop where
  count : ∀ b < layout.buckets, memory.read (layout.count b) = (valuesIn b items).length
  entry : ∀ b < layout.buckets, ∀ s < layout.capacity, ∀ value,
    (valuesIn b items)[s]? = some value → memory.read (layout.entry b s) = value
  grows : ∀ b < layout.buckets, before.read (layout.overflow b) ≤ memory.read (layout.overflow b)
  counted : ∀ b < layout.buckets, layout.capacity < (valuesIn b items).length →
    before.read (layout.overflow b) < memory.read (layout.overflow b)
  quiet : (∀ b < layout.buckets, (valuesIn b items).length ≤ layout.capacity) →
    ∀ b < layout.buckets, memory.read (layout.overflow b) = before.read (layout.overflow b)
  outside : ∀ addr, (∀ b < layout.buckets, addr ≠ layout.count b ∧ addr ≠ layout.overflow b ∧
    ∀ s < layout.capacity, addr ≠ layout.entry b s) → memory.read addr = before.read addr

variable {layout : Layout Addr} {before memory : Memory Addr} {items : List (Nat × Nat)}

/-- A bucket whose overflow counter has not moved is within the capacity. -/
theorem Filled.room (filled : Filled layout before memory items) (bucket : Nat)
    (inside : bucket < layout.buckets)
    (unmoved : memory.read (layout.overflow bucket) = before.read (layout.overflow bucket)) :
    (valuesIn bucket items).length ≤ layout.capacity := by
  by_contra many
  exact Nat.ne_of_gt (filled.counted bucket inside (Nat.lt_of_not_le many)) unmoved

/-- A bucket holds the first items that asked for it, up to its capacity. -/
theorem Filled.stored_take (filled : Filled layout before memory items) (bucket : Nat)
    (inside : bucket < layout.buckets) :
    stored layout memory bucket = (valuesIn bucket items).take layout.capacity := by
  simp only [stored, filled.count bucket inside]
  apply List.ext_getElem
  · rw [List.length_map, List.length_range, List.length_take, Nat.min_comm]
  · intro s listed bound
    rw [List.length_take] at bound
    rw [List.getElem_map, List.getElem_range, List.getElem_take]
    exact filled.entry bucket inside s (Nat.lt_of_lt_of_le bound (Nat.min_le_left _ _)) _
      (List.getElem?_eq_getElem (Nat.lt_of_lt_of_le bound (Nat.min_le_right _ _)))

/-- A bucket within the capacity holds exactly the items that asked for it. -/
theorem Filled.stored_eq (filled : Filled layout before memory items) (bucket : Nat)
    (inside : bucket < layout.buckets) (room : (valuesIn bucket items).length ≤ layout.capacity) :
    stored layout memory bucket = valuesIn bucket items := by
  rw [filled.stored_take bucket inside]
  exact List.take_of_length_le room

/-- A bucket holds only items that asked for it. -/
theorem Filled.asked (filled : Filled layout before memory items) (bucket : Nat)
    (inside : bucket < layout.buckets) (value : Nat) (here : value ∈ stored layout memory bucket) :
    (bucket, value) ∈ items := by
  rw [filled.stored_take bucket inside] at here
  exact (mem_values_in bucket value items).mp (List.mem_of_mem_take here)

/-- If no value is sorted twice, the buckets together hold none twice. -/
theorem Filled.distinct (filled : Filled layout before memory items)
    (unique : (items.map Prod.snd).Nodup) :
    ((List.range layout.buckets).flatMap (stored layout memory)).Nodup := by
  rw [List.nodup_flatMap]
  constructor
  · intro bucket member
    rw [filled.stored_take bucket (List.mem_range.mp member)]
    exact unique.sublist ((List.take_sublist _ _).trans (List.filter_sublist.map Prod.snd))
  · apply List.Pairwise.imp_of_mem _ List.nodup_range
    intro left right left_member right_member different value in_left in_right
    have left_item := filled.asked left (List.mem_range.mp left_member) value in_left
    have right_item := filled.asked right (List.mem_range.mp right_member) value in_right
    have same := List.inj_on_of_nodup_map unique left_item right_item rfl
    exact different (congrArg Prod.fst same)

/-- A bucket whose overflow counter has not moved holds the items that asked for it. -/
theorem Filled.mem_stored (filled : Filled layout before memory items) (bucket : Nat)
    (inside : bucket < layout.buckets)
    (unmoved : memory.read (layout.overflow bucket) = before.read (layout.overflow bucket))
    (value : Nat) : value ∈ stored layout memory bucket ↔ (bucket, value) ∈ items := by
  rw [filled.stored_eq bucket inside (filled.room bucket inside unmoved), mem_values_in]

section

variable [DecidableEq Addr]

/-- Reserving a slot within the capacity stores the item there. -/
theorem reserve_room (bucket value : Nat) (inside : bucket < layout.buckets)
    (filled : Filled layout before memory items)
    (room : (valuesIn bucket items).length < layout.capacity) :
    Filled layout before (reserve layout memory (bucket, value)) (items ++ [(bucket, value)]) := by
  have slot := filled.count bucket inside
  have after : reserve layout memory (bucket, value) =
      (memory.write (layout.count bucket) ((valuesIn bucket items).length + 1)).write
        (layout.entry bucket (valuesIn bucket items).length) value := by
    simp only [reserve, slot, if_pos room]
  have overflow : ∀ b < layout.buckets,
      (reserve layout memory (bucket, value)).read (layout.overflow b) = memory.read (layout.overflow b) := by
    intro b bound
    rw [after, Memory.read_write_of_ne (layout.entry_ne_overflow bucket inside _ room b bound).symm,
      Memory.read_write_of_ne (layout.count_ne_overflow bucket inside b bound).symm]
  refine ⟨?_, ?_, ?_, ?_, ?_, ?_⟩
  · intro b bound
    rw [after, Memory.read_write_of_ne (layout.count_ne_entry b bound bucket inside _ room),
      values_in_snoc]
    by_cases here : bucket = b
    · subst here
      rw [Memory.read_write_self, if_pos rfl, List.length_append, List.length_singleton]
    · rw [Memory.read_write_of_ne (fun same => here (layout.count_injective bucket inside b bound
        same.symm)), if_neg here, filled.count b bound]
  · intro b bound s small other listed
    rw [values_in_snoc] at listed
    rw [after]
    by_cases here : bucket = b
    · subst here
      rw [if_pos rfl, List.getElem?_append] at listed
      by_cases earlier : s < (valuesIn bucket items).length
      · rw [if_pos earlier] at listed
        rw [Memory.read_write_of_ne (fun same => Nat.ne_of_lt earlier
            (layout.entry_injective bucket inside s small bucket inside _ room same).2),
          Memory.read_write_of_ne (layout.count_ne_entry bucket inside bucket inside s small).symm]
        exact filled.entry bucket inside s small other listed
      · rw [if_neg earlier] at listed
        have last : s = (valuesIn bucket items).length := by
          have bound := (List.getElem?_eq_some_iff.mp listed).1
          rw [List.length_singleton] at bound
          omega
        subst last
        rw [Nat.sub_self, List.getElem?_cons_zero, Option.some.injEq] at listed
        rw [Memory.read_write_self, listed]
    · rw [if_neg here] at listed
      rw [Memory.read_write_of_ne (fun same => here
          (layout.entry_injective b bound s small bucket inside _ room same).1.symm),
        Memory.read_write_of_ne (layout.count_ne_entry bucket inside b bound s small).symm]
      exact filled.entry b bound s small other listed
  · intro b bound
    rw [overflow b bound]
    exact filled.grows b bound
  · intro b bound many
    rw [overflow b bound]
    rw [values_in_snoc] at many
    split at many
    · rename_i here
      subst here
      rw [List.length_append, List.length_singleton] at many
      omega
    · exact filled.counted b bound many
  · intro few b bound
    rw [overflow b bound]
    refine filled.quiet (fun c small => ?_) b bound
    have most := few c small
    rw [values_in_snoc] at most
    split at most
    · rw [List.length_append] at most
      omega
    · exact most
  · intro addr outside
    obtain ⟨not_count, _, not_entry⟩ := outside bucket inside
    rw [after, Memory.read_write_of_ne (not_entry _ room), Memory.read_write_of_ne not_count]
    exact filled.outside addr outside

/-- Reserving a slot beyond the capacity only counts the overflow. -/
theorem reserve_full (bucket value : Nat) (inside : bucket < layout.buckets)
    (filled : Filled layout before memory items)
    (full : layout.capacity ≤ (valuesIn bucket items).length) :
    Filled layout before (reserve layout memory (bucket, value)) (items ++ [(bucket, value)]) := by
  have slot := filled.count bucket inside
  have after : reserve layout memory (bucket, value) =
      (memory.write (layout.count bucket) ((valuesIn bucket items).length + 1)).write
        (layout.overflow bucket) (memory.read (layout.overflow bucket) + 1) := by
    simp only [reserve, slot, if_neg (Nat.not_lt.mpr full)]
    rw [Memory.read_write_of_ne (layout.count_ne_overflow bucket inside bucket inside).symm]
  have grown : ∀ b < layout.buckets, memory.read (layout.overflow b) ≤
      (reserve layout memory (bucket, value)).read (layout.overflow b) := by
    intro b bound
    rw [after]
    by_cases here : layout.overflow b = layout.overflow bucket
    · rw [here, Memory.read_write_self]
      exact Nat.le_succ _
    · rw [Memory.read_write_of_ne here,
        Memory.read_write_of_ne (layout.count_ne_overflow bucket inside b bound).symm]
  refine ⟨?_, ?_, ?_, ?_, ?_, ?_⟩
  · intro b bound
    rw [after, Memory.read_write_of_ne (layout.count_ne_overflow b bound bucket inside),
      values_in_snoc]
    by_cases here : bucket = b
    · subst here
      rw [Memory.read_write_self, if_pos rfl, List.length_append, List.length_singleton]
    · rw [Memory.read_write_of_ne (fun same => here (layout.count_injective bucket inside b bound
        same.symm)), if_neg here, filled.count b bound]
  · intro b bound s small other listed
    rw [after, Memory.read_write_of_ne (layout.entry_ne_overflow b bound s small bucket inside),
      Memory.read_write_of_ne (layout.count_ne_entry bucket inside b bound s small).symm]
    rw [values_in_snoc] at listed
    split at listed
    · rename_i here
      subst here
      rw [List.getElem?_append, if_pos (by omega)] at listed
      exact filled.entry bucket inside s small other listed
    · exact filled.entry b bound s small other listed
  · intro b bound
    exact (filled.grows b bound).trans (grown b bound)
  · intro b bound many
    by_cases here : bucket = b
    · subst here
      rw [after, Memory.read_write_self]
      exact Nat.lt_succ_of_le (filled.grows bucket inside)
    · rw [values_in_snoc, if_neg here] at many
      exact Nat.lt_of_lt_of_le (filled.counted b bound many) (grown b bound)
  · intro few
    have most := few bucket inside
    rw [values_in_snoc, if_pos rfl, List.length_append, List.length_singleton] at most
    omega
  · intro addr outside
    obtain ⟨not_count, not_overflow, _⟩ := outside bucket inside
    rw [after, Memory.read_write_of_ne not_overflow, Memory.read_write_of_ne not_count]
    exact filled.outside addr outside

/-- Reserving slots for further items. -/
theorem reserve_all (rest : List (Nat × Nat)) (inside : ∀ item ∈ rest, item.1 < layout.buckets)
    (filled : Filled layout before memory items) :
    Filled layout before (rest.foldl (reserve layout) memory) (items ++ rest) := by
  induction rest generalizing memory items with
  | nil => rwa [List.append_nil]
  | cons item rest ih =>
    obtain ⟨bucket, value⟩ := item
    have bound : bucket < layout.buckets := inside (bucket, value) List.mem_cons_self
    have one : Filled layout before (reserve layout memory (bucket, value))
        (items ++ [(bucket, value)]) := by
      rcases Nat.lt_or_ge (valuesIn bucket items).length layout.capacity with room | full
      · exact reserve_room bucket value bound filled room
      · exact reserve_full bucket value bound filled full
    have all := ih (fun item member => inside item (List.mem_cons_of_mem _ member)) one
    rwa [List.append_assoc, List.singleton_append] at all

/-- Reserving slots for all items, starting from cleared counters. -/
theorem reserve_cleared (items : List (Nat × Nat))
    (inside : ∀ item ∈ items, item.1 < layout.buckets)
    (cleared : ∀ b < layout.buckets, before.read (layout.count b) = 0) :
    Filled layout before (items.foldl (reserve layout) before) items := by
  have empty : Filled layout before before [] := by
    refine ⟨cleared, ?_, fun _ _ => Nat.le_refl _, ?_, fun _ _ _ => rfl, fun _ _ => rfl⟩
    · intro _ _ _ _ _ listed
      cases listed
    · intro _ _ many
      cases many
  exact reserve_all items inside empty

/-! ## No item is uncounted -/

/-- How many items the buckets hold. -/
def occupancy (layout : Layout Addr) (memory : Memory Addr) : Nat :=
  ∑ bucket ∈ Finset.range layout.buckets, (stored layout memory bucket).length

omit [DecidableEq Addr] in
/-- A bucket holds as many items as were counted, up to its capacity. -/
theorem stored_length (bucket : Nat) : (stored layout memory bucket).length =
    min (memory.read (layout.count bucket)) layout.capacity := by
  rw [stored, List.length_map, List.length_range]

omit [DecidableEq Addr] in
/-- Cleared counters mean empty buckets. -/
theorem occupancy_cleared (cleared : ∀ b < layout.buckets, before.read (layout.count b) = 0) :
    occupancy layout before = 0 := by
  apply Finset.sum_eq_zero
  intro bucket member
  rw [stored_length, cleared bucket (Finset.mem_range.mp member), Nat.zero_min]

/-- An item takes a place in its bucket or is counted by the overflow counter. -/
theorem reserve_conserves (bucket value : Nat) (inside : bucket < layout.buckets) :
    occupancy layout (reserve layout memory (bucket, value)) +
        (reserve layout memory (bucket, value)).read (layout.overflow bucket) =
      occupancy layout memory + memory.read (layout.overflow bucket) + 1 := by
  have member : bucket ∈ Finset.range layout.buckets := Finset.mem_range.mpr inside
  -- Only the counters of this bucket move.
  have after : ∀ other < layout.buckets,
      (reserve layout memory (bucket, value)).read (layout.count other) =
        if other = bucket then memory.read (layout.count bucket) + 1
        else memory.read (layout.count other) := by
    intro other bound
    have counted : (memory.write (layout.count bucket)
        (memory.read (layout.count bucket) + 1)).read (layout.count other) =
          if other = bucket then memory.read (layout.count bucket) + 1
          else memory.read (layout.count other) := by
      split
      · rename_i here
        rw [here, Memory.read_write_self]
      · rename_i elsewhere
        rw [Memory.read_write_of_ne fun same => elsewhere
          (layout.count_injective other bound bucket inside same)]
    rw [reserve]
    split
    · rename_i room
      rw [Memory.read_write_of_ne (layout.count_ne_entry other bound bucket inside _ room), counted]
    · rw [Memory.read_write_of_ne (layout.count_ne_overflow other bound bucket inside), counted]
  have others : ∑ other ∈ (Finset.range layout.buckets).erase bucket,
        (stored layout (reserve layout memory (bucket, value)) other).length =
      ∑ other ∈ (Finset.range layout.buckets).erase bucket, (stored layout memory other).length := by
    apply Finset.sum_congr rfl
    intro other other_member
    obtain ⟨elsewhere, bound⟩ := Finset.mem_erase.mp other_member
    rw [stored_length, stored_length, after other (Finset.mem_range.mp bound), if_neg elsewhere]
  have overflow : (reserve layout memory (bucket, value)).read (layout.overflow bucket) =
      memory.read (layout.overflow bucket) +
        if memory.read (layout.count bucket) < layout.capacity then 0 else 1 := by
    have apart := (layout.count_ne_overflow bucket inside bucket inside).symm
    rw [reserve]
    split
    · rename_i room
      rw [Memory.read_write_of_ne (layout.entry_ne_overflow bucket inside _ room bucket inside).symm,
        Memory.read_write_of_ne apart, Nat.add_zero]
    · rw [Memory.read_write_self, Memory.read_write_of_ne apart]
  rw [occupancy, occupancy, ← Finset.add_sum_erase _ _ member, ← Finset.add_sum_erase _ _ member,
    others, overflow, stored_length, stored_length, after bucket inside, if_pos rfl]
  split <;> omega

/-- Where all buckets share an overflow counter, all items are in their buckets or counted. -/
theorem reserve_all_conserves (overflow : Addr) (shared : ∀ bucket, layout.overflow bucket = overflow)
    (items : List (Nat × Nat)) (inside : ∀ item ∈ items, item.1 < layout.buckets) :
    occupancy layout (items.foldl (reserve layout) memory) +
        (items.foldl (reserve layout) memory).read overflow =
      occupancy layout memory + memory.read overflow + items.length := by
  induction items generalizing memory with
  | nil => rfl
  | cons item rest ih =>
    have one : occupancy layout (reserve layout memory item) +
          (reserve layout memory item).read (layout.overflow item.1) =
        occupancy layout memory + memory.read (layout.overflow item.1) + 1 :=
      reserve_conserves item.1 item.2 (inside item List.mem_cons_self)
    rw [shared] at one
    rw [List.foldl_cons, ih fun item member => inside item (List.mem_cons_of_mem _ member), one,
      List.length_cons]
    omega

omit [DecidableEq Addr] in
/-- Every item asks for one bucket. -/
theorem sum_values_in (buckets : Nat) (items : List (Nat × Nat))
    (inside : ∀ item ∈ items, item.1 < buckets) :
    ∑ bucket ∈ Finset.range buckets, (valuesIn bucket items).length = items.length := by
  induction items with
  | nil => exact Finset.sum_const_zero
  | cons item rest ih =>
    have one : ∀ bucket, (valuesIn bucket (item :: rest)).length =
        (if item.1 = bucket then 1 else 0) + (valuesIn bucket rest).length := by
      intro bucket
      by_cases here : item.1 = bucket
      · simp [valuesIn, here, Nat.add_comm]
      · simp [valuesIn, here]
    have member : item.1 ∈ Finset.range buckets :=
      Finset.mem_range.mpr (inside item List.mem_cons_self)
    rw [Finset.sum_congr rfl fun bucket _ => one bucket, Finset.sum_add_distrib, Finset.sum_ite_eq,
      if_pos member, ih fun other listed => inside other (List.mem_cons_of_mem _ listed),
      List.length_cons, Nat.add_comm]

/-- Where all buckets are cleared and share an overflow counter, it counts exactly the items
    beyond their capacities. -/
theorem reserve_cleared_excess (overflow : Addr) (shared : ∀ bucket, layout.overflow bucket = overflow)
    (items : List (Nat × Nat)) (inside : ∀ item ∈ items, item.1 < layout.buckets)
    (cleared : ∀ b < layout.buckets, before.read (layout.count b) = 0) :
    (items.foldl (reserve layout) before).read overflow = before.read overflow +
      ∑ bucket ∈ Finset.range layout.buckets, ((valuesIn bucket items).length - layout.capacity) := by
  have conserved := @reserve_all_conserves _ layout before _ overflow shared items inside
  have filled := reserve_cleared items inside cleared
  have held : occupancy layout (items.foldl (reserve layout) before) +
      ∑ bucket ∈ Finset.range layout.buckets, ((valuesIn bucket items).length - layout.capacity) =
        items.length := by
    rw [occupancy, ← Finset.sum_add_distrib, ← sum_values_in layout.buckets items inside]
    apply Finset.sum_congr rfl
    intro bucket member
    rw [stored_length, filled.count bucket (Finset.mem_range.mp member)]
    omega
  rw [occupancy_cleared cleared] at conserved
  omega

/-- If the buckets have room at all, the first item takes a place. -/
theorem reserve_cleared_occupied (room : 0 < layout.capacity) (items : List (Nat × Nat))
    (some_items : items ≠ []) (inside : ∀ item ∈ items, item.1 < layout.buckets)
    (cleared : ∀ b < layout.buckets, before.read (layout.count b) = 0) :
    0 < occupancy layout (items.foldl (reserve layout) before) := by
  obtain ⟨item, rest, rfl⟩ := List.exists_cons_of_ne_nil some_items
  have bound := inside item List.mem_cons_self
  have filled := reserve_cleared (item :: rest) inside cleared
  have asked : 0 < (valuesIn item.1 (item :: rest)).length :=
    List.length_pos_of_mem ((mem_values_in item.1 item.2 _).mpr List.mem_cons_self)
  have here : 0 < (stored layout ((item :: rest).foldl (reserve layout) before) item.1).length := by
    rw [stored_length, filled.count item.1 bound]
    exact Nat.lt_min.mpr ⟨asked, room⟩
  refine Nat.lt_of_lt_of_le here ?_
  rw [occupancy]
  exact Finset.single_le_sum (f := fun bucket =>
    (stored layout ((item :: rest).foldl (reserve layout) before) bucket).length)
    (fun _ _ => Nat.zero_le _) (Finset.mem_range.mpr bound)

end

/-! ## Batches of one bucket -/

section Batches

variable {α : Type} [DecidableEq Addr] (store : Memory Addr → Addr → α → Memory Addr)
variable (layout : Layout Addr)

/-- Store an item in a reserved slot, or count the overflow. -/
def storeAt (bucket slot : Nat) (item : α) (memory : Memory Addr) : Memory Addr :=
  if slot < layout.capacity then store memory (layout.entry bucket slot) item
  else memory.write (layout.overflow bucket) (memory.read (layout.overflow bucket) + 1)

/-- Reserve a slot for an item and store it there. -/
def reserveItem (memory : Memory Addr) (item : Nat × α) : Memory Addr :=
  let slot := memory.read (layout.count item.1)
  storeAt store layout item.1 slot item.2 (memory.write (layout.count item.1) (slot + 1))

/-- Reserve slots for all items of a bucket at once; each has its place among them. -/
def reserveBatch (memory : Memory Addr) (bucket : Nat) (items : List α) : Memory Addr :=
  let base := memory.read (layout.count bucket)
  let memory := memory.write (layout.count bucket) (base + items.length)
  (items.zipIdx base).foldl (fun memory item => storeAt store layout bucket item.2 item.1 memory) memory

/-- Storing an item does not touch the counters. -/
def KeepsCounters : Prop :=
  ∀ (memory : Memory Addr) (bucket slot value : Nat) (item : α), bucket < layout.buckets →
    slot < layout.capacity →
    store (memory.write (layout.count bucket) value) (layout.entry bucket slot) item =
      (store memory (layout.entry bucket slot) item).write (layout.count bucket) value

variable {store layout}

/-- Writes to different places commute. -/
theorem Memory.write_comm {addr other : Addr} (different : addr ≠ other) (value second : Nat)
    (memory : Memory Addr) :
    (memory.write addr value).write other second = (memory.write other second).write addr value := by
  simp only [Memory.write]
  rw [Function.update_comm different]

/-- The later of two writes to a place remains. -/
theorem Memory.write_write (addr : Addr) (value second : Nat) (memory : Memory Addr) :
    (memory.write addr value).write addr second = memory.write addr second := by
  simp only [Memory.write, Function.update_idem]

/-- Storing in a slot and writing the bucket's counter commute. -/
theorem store_at_count (keeps : KeepsCounters store layout) (bucket slot value : Nat) (item : α)
    (inside : bucket < layout.buckets) (memory : Memory Addr) :
    storeAt store layout bucket slot item (memory.write (layout.count bucket) value) =
      (storeAt store layout bucket slot item memory).write (layout.count bucket) value := by
  have apart := layout.count_ne_overflow bucket inside bucket inside
  unfold storeAt
  split
  · rename_i room
    exact keeps memory bucket slot value item inside room
  · rw [Memory.read_write_of_ne apart.symm, Memory.write_comm apart]

/-- Reserving a batch is reserving its items one after the other. -/
theorem reserve_batch_eq (keeps : KeepsCounters store layout) (bucket : Nat)
    (inside : bucket < layout.buckets) (items : List α) (memory : Memory Addr) :
    reserveBatch store layout memory bucket items =
      items.foldl (fun memory item => reserveItem store layout memory (bucket, item)) memory := by
  induction items generalizing memory with
  | nil =>
    rw [reserveBatch, List.foldl_nil]
    simp [Memory.write]
  | cons item rest ih =>
    have slot : (reserveItem store layout memory (bucket, item)).read (layout.count bucket) =
        memory.read (layout.count bucket) + 1 := by
      rw [reserveItem, store_at_count keeps _ _ _ _ inside, Memory.read_write_self]
    have stored : ∀ value, (reserveItem store layout memory (bucket, item)).write
        (layout.count bucket) value = storeAt store layout bucket (memory.read (layout.count bucket))
          item (memory.write (layout.count bucket) value) := by
      intro value
      rw [reserveItem, store_at_count keeps _ _ _ _ inside, Memory.write_write,
        store_at_count keeps _ _ _ _ inside]
    rw [List.foldl_cons, ← ih, reserveBatch, reserveBatch]
    simp only [List.zipIdx_cons, List.foldl_cons, List.length_cons, slot, stored]
    rw [Nat.add_assoc, Nat.add_comm 1 rest.length]

end Batches

/-! ## Items of two words -/

section Pairs

variable (layout : Layout Nat)

/-- Store a pair in two adjacent words. -/
def storePair (memory : Memory Nat) (addr : Nat) (pair : Nat × Nat) : Memory Nat :=
  (memory.write addr pair.1).write (addr + 1) pair.2

/-- The memory with the two words of each slot seen as one. -/
def pairView (header : Nat) (memory : Memory Nat) : Memory Nat :=
  ⟨fun addr =>
    if addr < header then memory.read addr
    else if (addr - header) % 2 = 0 then Nat.pair (memory.read addr) (memory.read (addr + 1))
    else 0⟩

/-- Slots of two words behind a header that holds all counters. -/
structure PairSlots (header : Nat) : Prop where
  count : ∀ b < layout.buckets, layout.count b < header
  overflow : ∀ b < layout.buckets, layout.overflow b < header
  entry : ∀ b s, header ≤ layout.entry b s ∧ (layout.entry b s - header) % 2 = 0

variable {layout} {header : Nat}

/-- Pairs are stored beside the counters. -/
theorem PairSlots.keeps_counters (slots : PairSlots layout header) :
    KeepsCounters storePair layout := by
  intro memory bucket slot value item inside room
  have count := slots.count bucket inside
  have entry := (slots.entry bucket slot).1
  have first : layout.count bucket ≠ layout.entry bucket slot := by omega
  have second : layout.count bucket ≠ layout.entry bucket slot + 1 := by omega
  rw [storePair, storePair, Memory.write_comm first, Memory.write_comm second]

/-- The words of the header are seen as they are. -/
theorem pair_view_read (memory : Memory Nat) (addr : Nat) (inside : addr < header) :
    (pairView header memory).read addr = memory.read addr := by
  simp only [pairView, if_pos inside]

/-- A write to the header is seen as it is. -/
theorem pair_view_header (memory : Memory Nat) (addr value : Nat) (inside : addr < header) :
    pairView header (memory.write addr value) = (pairView header memory).write addr value := by
  simp only [pairView, Memory.write, Memory.mk.injEq]
  funext other
  by_cases same : other = addr
  · subst same
    simp [inside]
  · by_cases small : other < header
    · simp [small, Function.update_of_ne same]
    · have next : other + 1 ≠ addr := by omega
      simp [small, Function.update_of_ne same, Function.update_of_ne next]

/-- A stored pair is seen as one word. -/
theorem pair_view_store (memory : Memory Nat) (addr : Nat) (pair : Nat × Nat)
    (behind : header ≤ addr) (even : (addr - header) % 2 = 0) :
    pairView header (storePair memory addr pair) =
      (pairView header memory).write addr (Nat.pair pair.1 pair.2) := by
  simp only [pairView, storePair, Memory.write, Memory.mk.injEq]
  funext other
  by_cases same : other = addr
  · subst same
    rw [if_neg (Nat.not_lt.mpr behind), if_pos even]
    simp
  · rw [Function.update_of_ne same]
    by_cases small : other < header
    · rw [if_pos small, if_pos small, Function.update_of_ne (by omega), Function.update_of_ne same]
    · rw [if_neg small, if_neg small]
      split
      · rw [Function.update_of_ne (by omega), Function.update_of_ne same,
          Function.update_of_ne (by omega), Function.update_of_ne (by omega)]
      · rfl

/-- Reserving a slot for a pair is seen as reserving one for the paired number. -/
theorem pair_view_reserve (slots : PairSlots layout header) (memory : Memory Nat)
    (item : Nat × Nat × Nat) (inside : item.1 < layout.buckets) :
    pairView header (reserveItem storePair layout memory item) =
      reserve layout (pairView header memory) (item.1, Nat.pair item.2.1 item.2.2) := by
  have count := slots.count _ inside
  have overflow := slots.overflow _ inside
  obtain ⟨behind, even⟩ := slots.entry item.1 (memory.read (layout.count item.1))
  simp only [reserveItem, storeAt, reserve, pair_view_read _ _ count]
  split
  · rw [pair_view_store _ _ _ behind even, pair_view_header _ _ _ count]
  · rw [pair_view_header _ _ _ overflow, pair_view_header _ _ _ count,
      ← pair_view_header _ _ _ count, pair_view_read _ _ overflow, pair_view_header _ _ _ count]

end Pairs

end CuckatooMiner.Reservation
