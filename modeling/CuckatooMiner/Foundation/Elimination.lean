import Mathlib

/-!
# Worklist elimination

Items belong to groups, and a group may have a mate. An item may stay only while
each of its groups has a mate with a living member. The worklist holds the groups
that have lost that mate. Taking a group from the worklist kills its living
members; a group whose last member dies sends its mate to the worklist, once.

Whatever the order of the worklist, it kills no item of a set whose items support
each other, and when it is empty the living items support each other. So the
living items are then the greatest such set.
-/

namespace CuckatooMiner.Elimination

/-- The groups of each item, the items of each group, and the mate of each group. Tables may be
    anything here; the ones that belong together are singled out by a structure of their own. -/
structure Incidence where
  groups : Nat → List Nat
  members : Nat → List Nat
  mate : Nat → Option Nat

/-- Living items, the number of living members of each group, the groups that were
    ever queued, and the worklist. -/
structure State where
  alive : List Bool
  liveCount : List Nat
  queued : List Bool
  queue : List Nat
deriving DecidableEq, Repr

variable (incidence : Incidence)

/-- Queue a group unless it was queued before. -/
def enqueue (state : State) (group : Nat) : State :=
  if state.queued.getD group false then state
  else { state with queued := state.queued.set group true, queue := state.queue ++ [group] }

/-- A group lost a member; its mate is queued when that was the last one. -/
def dropMember (state : State) (group : Nat) : State :=
  let state := { state with liveCount := state.liveCount.modify group (· - 1) }
  if state.liveCount.getD group 0 = 0 then
    match incidence.mate group with
    | none => state
    | some mate => enqueue state mate
  else state

/-- Kill an item that is still alive. -/
def kill (state : State) (item : Nat) : State :=
  if state.alive.getD item false then
    (incidence.groups item).foldl (dropMember incidence)
      { state with alive := state.alive.set item false }
  else state

/-- Kill the members of a group. -/
def process (state : State) (group : Nat) : State :=
  (incidence.members group).foldl (kill incidence) state

/-- Take groups from the front of the worklist until it is empty. No group is queued
    twice, so as many turns as groups suffice. -/
def drain : Nat → State → State
  | 0, state => state
  | turns + 1, state =>
      match state.queue with
      | [] => state
      | group :: rest => drain turns (process incidence { state with queue := rest } group)

/-- A group without a mate, or whose mate has no living member. -/
def lonely (liveCount : List Nat) (group : Nat) : Bool :=
  match incidence.mate group with
  | none => true
  | some mate => liveCount.getD mate 0 == 0

/-- Before the first turn all items are alive and the lonely groups are queued. -/
def initial (items : Nat) (liveCount : List Nat) : State :=
  ⟨List.replicate items true, liveCount,
    (List.range liveCount.length).map (lonely incidence liveCount),
    (List.range liveCount.length).filter (lonely incidence liveCount)⟩

/-- The two directions of membership agree, no item is in a group twice, and mates
    come in pairs. -/
structure WellFormed (items count : Nat) : Prop where
  members : ∀ group < count, ∀ item,
    item ∈ incidence.members group ↔ item < items ∧ group ∈ incidence.groups item
  inside : ∀ item < items, ∀ group ∈ incidence.groups item, group < count
  once : ∀ item < items, (incidence.groups item).Nodup
  mates : ∀ group < count, ∀ mate, incidence.mate group = some mate →
    mate < count ∧ incidence.mate mate = some group

/-- Each item of a set has, for each of its groups, an item of the set in the mate. The items
    need not be all that are left. -/
def Supported (items : Nat) (set : Nat → Prop) : Prop :=
  ∀ item, set item → item < items ∧ ∀ group ∈ incidence.groups item,
    ∃ mate, incidence.mate group = some mate ∧ ∃ other, set other ∧ mate ∈ incidence.groups other

/-- The living members of a group. -/
def living (items : Nat) (alive : List Bool) (group : Nat) : Finset Nat :=
  (Finset.range items).filter fun item =>
    alive.getD item false = true ∧ group ∈ incidence.groups item

/-- What holds between steps. A group in `busy` is being processed, each entry of
    `pending` is a member already dead but still counted, and a group in `owed` has
    just lost its mate and is not queued yet. -/
structure Invariant (items count : Nat) (set : Nat → Prop) (busy pending owed : List Nat)
    (state : State) : Prop where
  liveLength : state.liveCount.length = count
  queuedLength : state.queued.length = count
  counted : ∀ group < count, state.liveCount.getD group 0 =
    (living incidence items state.alive group).card + pending.count group
  inside : ∀ group, group ∈ busy ∨ group ∈ state.queue →
    group < count ∧ state.queued.getD group false = true
  settled : ∀ group < count, state.queued.getD group false = false → group ∉ owed →
    ∃ mate, incidence.mate group = some mate ∧ 0 < state.liveCount.getD mate 0
  justified : ∀ group < count, state.queued.getD group false = true →
    ∀ mate, incidence.mate group = some mate → state.liveCount.getD mate 0 = 0
  processed : ∀ group < count, state.queued.getD group false = true →
    group ∈ busy ∨ group ∈ state.queue ∨ living incidence items state.alive group = ∅
  kept : ∀ item, set item → state.alive.getD item false = true

variable {incidence} {items count : Nat} {set : Nat → Prop} {busy pending owed : List Nat}
  {state : State}

/-- Reading a list of marks after one inside it was set. -/
theorem getD_set (marks : List Bool) (here there : Nat) (value : Bool)
    (inside : here < marks.length) :
    (marks.set here value).getD there false =
      if here = there then value else marks.getD there false := by
  rw [List.getD_eq_getElem?_getD, List.getElem?_set]
  by_cases same : here = there
  · subst same
    simp [inside]
  · simp [same]

/-- Reading the counts after one was decreased. -/
theorem getD_decrease (counts : List Nat) (here there : Nat) (inside : here < counts.length) :
    (counts.modify here (· - 1)).getD there 0 =
      counts.getD there 0 - if here = there then 1 else 0 := by
  rw [List.getD_eq_getElem?_getD, List.getElem?_modify]
  by_cases same : here = there
  · subst same
    simp [inside]
  · simp [same]

/-- Decreasing a count settles one pending member. Only the mate of a group whose
    count reaches zero can lose its living mate. -/
theorem decrease_invariant (wellFormed : WellFormed incidence items count) (group : Nat)
    (bound : group < count)
    (here : Invariant incidence items count set busy (group :: pending) [] state) :
    Invariant incidence items count set busy pending
      (if (state.liveCount.modify group (· - 1)).getD group 0 = 0 then
        (incidence.mate group).toList else [])
      { state with liveCount := state.liveCount.modify group (· - 1) } := by
  have counts : ∀ other, (state.liveCount.modify group (· - 1)).getD other 0 =
      state.liveCount.getD other 0 - if group = other then 1 else 0 :=
    fun other => getD_decrease _ _ _ (by rw [here.liveLength]; exact bound)
  refine ⟨by simpa using here.liveLength, here.queuedLength, ?_, here.inside, ?_, ?_,
    here.processed, here.kept⟩
  · intro other inside
    have before := here.counted other inside
    rw [List.count_cons] at before
    rw [counts, before]
    by_cases same : group = other <;> simp [same]
  · intro other inside unqueued not_owed
    obtain ⟨mate, mated, positive⟩ := here.settled other inside unqueued List.not_mem_nil
    refine ⟨mate, mated, ?_⟩
    simp only at not_owed ⊢
    by_cases same : group = mate
    · subst same
      have back := (wellFormed.mates other inside group mated).2
      apply Nat.pos_of_ne_zero
      intro empty
      rw [if_pos empty, back] at not_owed
      exact not_owed (by simp)
    · rw [counts, if_neg same]
      exact positive
  · intro other inside queued mate mated
    simp only
    rw [counts, here.justified other inside queued mate mated, Nat.zero_sub]

/-- Queueing a group that has no living mate pays what it is owed. -/
theorem enqueue_invariant (group : Nat) (bound : group < count)
    (lonely : ∀ mate, incidence.mate group = some mate → state.liveCount.getD mate 0 = 0)
    (here : Invariant incidence items count set busy pending [group] state) :
    Invariant incidence items count set busy pending [] (enqueue state group) := by
  unfold enqueue
  split
  · rename_i already
    refine ⟨here.liveLength, here.queuedLength, here.counted, here.inside, ?_, here.justified,
      here.processed, here.kept⟩
    intro other inside unqueued _
    apply here.settled other inside unqueued
    intro same
    obtain rfl := List.mem_singleton.mp same
    rw [already] at unqueued
    cases unqueued
  · have marks := fun other => getD_set state.queued group other true
      (by rw [here.queuedLength]; exact bound)
    refine ⟨here.liveLength, by simpa using here.queuedLength, here.counted, ?_, ?_, ?_, ?_,
      here.kept⟩
    · intro other member
      simp only [marks]
      have waited : other ∈ busy ∨ other ∈ state.queue →
          other < count ∧ (if group = other then true else state.queued.getD other false) = true :=
        fun before => ⟨(here.inside other before).1, by rw [(here.inside other before).2, ite_self]⟩
      rcases member with busy_here | queued_here
      · exact waited (Or.inl busy_here)
      · rcases List.mem_append.mp queued_here with old | new
        · exact waited (Or.inr old)
        · obtain rfl := List.mem_singleton.mp new
          exact ⟨bound, if_pos rfl⟩
    · intro other inside unqueued _
      simp only [marks] at unqueued
      split at unqueued
      · cases unqueued
      · rename_i different
        exact here.settled other inside unqueued fun same =>
          different (List.mem_singleton.mp same).symm
    · intro other inside queued
      simp only [marks] at queued
      split at queued
      · rename_i same
        exact same ▸ lonely
      · exact here.justified other inside queued
    · intro other inside queued
      simp only [marks] at queued
      split at queued
      · rename_i same
        exact Or.inr (Or.inl (by simp [same]))
      · rcases here.processed other inside queued with busy_here | waiting | done
        · exact Or.inl busy_here
        · exact Or.inr (Or.inl (List.mem_append_left _ waiting))
        · exact Or.inr (Or.inr done)

/-- Accounting for one dead member keeps the invariant. -/
theorem drop_member_invariant (wellFormed : WellFormed incidence items count) (group : Nat)
    (bound : group < count)
    (here : Invariant incidence items count set busy (group :: pending) [] state) :
    Invariant incidence items count set busy pending [] (dropMember incidence state group) := by
  have decreased := decrease_invariant wellFormed group bound here
  unfold dropMember
  simp only
  split
  · rename_i empty
    rw [if_pos empty] at decreased
    split
    · rename_i alone
      rwa [alone] at decreased
    · rename_i mate mated
      obtain ⟨mate_bound, back⟩ := wellFormed.mates group bound mate mated
      rw [mated] at decreased
      refine enqueue_invariant mate mate_bound ?_ decreased
      intro other mate_mated
      rw [back] at mate_mated
      cases mate_mated
      exact empty
  · rename_i positive
    rwa [if_neg positive] at decreased

/-- Accounting for a dead item in all its groups keeps the invariant. -/
theorem drop_members_invariant (wellFormed : WellFormed incidence items count)
    (groups : List Nat) (bound : ∀ group ∈ groups, group < count)
    (here : Invariant incidence items count set busy groups [] state) :
    Invariant incidence items count set busy [] []
      (groups.foldl (dropMember incidence) state) := by
  induction groups generalizing state with
  | nil => exact here
  | cons group rest ih =>
    exact ih (fun other member => bound other (List.mem_cons_of_mem _ member))
      (drop_member_invariant wellFormed group (bound group List.mem_cons_self) here)

/-- A dead item leaves the living members of its groups. -/
theorem living_kill (alive : List Bool) (item group : Nat) (inside : item < alive.length) :
    living incidence items (alive.set item false) group =
      (living incidence items alive group).erase item := by
  apply Finset.ext
  intro other
  simp only [living, Finset.mem_filter, Finset.mem_range, Finset.mem_erase,
    getD_set alive item other false inside]
  by_cases same : item = other
  · simp [same]
  · have different : other ≠ item := fun equal => same equal.symm
    simp [same, different]

/-- Marking an item of a queued group dead leaves it counted in its groups: no item of
    a supported set is in a queued group, since the mate that would support it is dead. -/
theorem dead_invariant (wellFormed : WellFormed incidence items count)
    (supported : Supported incidence items set) (item group : Nat) (inside : item < items)
    (alive : state.alive.getD item false = true) (member : group ∈ incidence.groups item)
    (busy_here : group ∈ busy) (here : Invariant incidence items count set busy [] [] state) :
    Invariant incidence items count set busy (incidence.groups item) []
      { state with alive := state.alive.set item false } := by
  have bound : item < state.alive.length := by
    by_contra outside
    rw [List.getD_eq_default _ _ (by omega)] at alive
    cases alive
  have outsider : ¬ set item := by
    intro chosen
    obtain ⟨mate, mated, other, other_chosen, other_member⟩ :=
      (supported item chosen).2 group member
    obtain ⟨group_bound, queued⟩ := here.inside group (Or.inl busy_here)
    obtain ⟨mate_bound, _⟩ := wellFormed.mates group group_bound mate mated
    have empty := here.justified group group_bound queued mate mated
    rw [here.counted mate mate_bound, List.count_nil, Nat.add_zero, Finset.card_eq_zero] at empty
    have present : other ∈ living incidence items state.alive mate :=
      Finset.mem_filter.mpr ⟨Finset.mem_range.mpr (supported other other_chosen).1,
        here.kept other other_chosen, other_member⟩
    rw [empty] at present
    exact absurd present (Finset.notMem_empty other)
  refine ⟨here.liveLength, here.queuedLength, ?_, here.inside, here.settled, here.justified,
    ?_, ?_⟩
  · intro other other_bound
    rw [living_kill _ _ _ bound, here.counted other other_bound, List.count_nil, Nat.add_zero]
    by_cases shared : other ∈ incidence.groups item
    · have present : item ∈ living incidence items state.alive other :=
        Finset.mem_filter.mpr ⟨Finset.mem_range.mpr inside, alive, shared⟩
      rw [List.count_eq_one_of_mem (wellFormed.once item inside) shared,
        Finset.card_erase_add_one present]
    · have absent : item ∉ living incidence items state.alive other :=
        fun present => shared (Finset.mem_filter.mp present).2.2
      rw [List.count_eq_zero_of_not_mem shared, Finset.erase_eq_of_notMem absent, Nat.add_zero]
  · intro other other_bound queued
    rw [living_kill _ _ _ bound]
    rcases here.processed other other_bound queued with busy_other | waiting | done
    · exact Or.inl busy_other
    · exact Or.inr (Or.inl waiting)
    · exact Or.inr (Or.inr (by rw [done, Finset.erase_empty]))
  · intro other chosen
    have different : item ≠ other := by
      rintro rfl
      exact outsider chosen
    rw [getD_set _ _ _ _ bound, if_neg different]
    exact here.kept other chosen

/-- Killing an item of a queued group keeps the invariant. -/
theorem kill_invariant (wellFormed : WellFormed incidence items count)
    (supported : Supported incidence items set) (item group : Nat) (inside : item < items)
    (member : group ∈ incidence.groups item) (busy_here : group ∈ busy)
    (here : Invariant incidence items count set busy [] [] state) :
    Invariant incidence items count set busy [] [] (kill incidence state item) := by
  unfold kill
  split
  · rename_i alive
    exact drop_members_invariant wellFormed _ (wellFormed.inside item inside)
      (dead_invariant wellFormed supported item group inside alive member busy_here here)
  · exact here

/-- Queueing a group changes no item. -/
theorem enqueue_alive (state : State) (group : Nat) :
    (enqueue state group).alive = state.alive := by
  unfold enqueue
  split <;> rfl

/-- Accounting for dead members changes no item. -/
theorem drop_members_alive (groups : List Nat) (state : State) :
    (groups.foldl (dropMember incidence) state).alive = state.alive := by
  induction groups generalizing state with
  | nil => rfl
  | cons group rest ih =>
    rw [List.foldl_cons, ih, dropMember]
    simp only
    split
    · split
      · rfl
      · rw [enqueue_alive]
    · rfl

/-- Killing an item kills it and changes no other. -/
theorem kill_alive (state : State) (item other : Nat) :
    (kill incidence state item).alive.getD other false =
      if item = other then false else state.alive.getD other false := by
  unfold kill
  split
  · rename_i alive
    have bound : item < state.alive.length := by
      by_contra outside
      rw [List.getD_eq_default _ _ (by omega)] at alive
      cases alive
    rw [drop_members_alive, getD_set _ _ _ _ bound]
  · rename_i dead
    split
    · rename_i same
      subst same
      simpa using dead
    · rfl

/-- Killing a list of items kills its items and changes no other. -/
theorem kill_all_alive (killed : List Nat) (state : State) (other : Nat) :
    (killed.foldl (kill incidence) state).alive.getD other false =
      if other ∈ killed then false else state.alive.getD other false := by
  induction killed generalizing state with
  | nil => simp
  | cons item rest ih =>
    rw [List.foldl_cons, ih, kill_alive]
    by_cases here : item = other
    · simp [here]
    · have different : other ≠ item := fun same => here same.symm
      simp [here, different]

/-- Taking a group from the front of the worklist makes it the one being processed. -/
theorem taken_invariant (group : Nat) (rest : List Nat) (front : state.queue = group :: rest)
    (here : Invariant incidence items count set [] [] [] state) :
    Invariant incidence items count set [group] [] [] { state with queue := rest } := by
  refine ⟨here.liveLength, here.queuedLength, here.counted, ?_, here.settled, here.justified,
    ?_, here.kept⟩
  · rintro other (busy_other | waiting)
    · obtain rfl := List.mem_singleton.mp busy_other
      exact here.inside other (Or.inr (by rw [front]; exact List.mem_cons_self))
    · exact here.inside other (Or.inr (by rw [front]; exact List.mem_cons_of_mem _ waiting))
  · intro other other_bound other_queued
    rcases here.processed other other_bound other_queued with busy_other | waiting | done
    · cases busy_other
    · rw [front] at waiting
      rcases List.mem_cons.mp waiting with rfl | later
      · exact Or.inl List.mem_cons_self
      · exact Or.inr (Or.inl later)
    · exact Or.inr (Or.inr done)

/-- Processing a group that waited at the front of the worklist keeps the
    invariant: afterwards none of its members lives. -/
theorem process_invariant (wellFormed : WellFormed incidence items count)
    (supported : Supported incidence items set) (group : Nat) (rest : List Nat)
    (front : state.queue = group :: rest)
    (here : Invariant incidence items count set [] [] [] state) :
    Invariant incidence items count set [] [] []
      (process incidence { state with queue := rest } group) := by
  have bound := (here.inside group (Or.inr (by rw [front]; exact List.mem_cons_self))).1
  have taken := taken_invariant group rest front here
  have killed : ∀ (members : List Nat), (∀ item ∈ members, item ∈ incidence.members group) →
      ∀ before, Invariant incidence items count set [group] [] [] before →
        Invariant incidence items count set [group] [] []
          (members.foldl (kill incidence) before) := by
    intro members
    induction members with
    | nil => exact fun _ _ before => before
    | cons item later ih =>
      intro included before before_here
      obtain ⟨inside, member⟩ :=
        (wellFormed.members group bound item).mp (included item List.mem_cons_self)
      exact ih (fun other present => included other (List.mem_cons_of_mem _ present)) _
        (kill_invariant wellFormed supported item group inside member List.mem_cons_self
          before_here)
  have after := killed (incidence.members group) (fun _ member => member) _ taken
  have dead : living incidence items (process incidence { state with queue := rest } group).alive
      group = ∅ := by
    apply Finset.eq_empty_of_forall_notMem
    intro item present
    obtain ⟨inside, alive, member⟩ := Finset.mem_filter.mp present
    rw [process, kill_all_alive, if_pos ((wellFormed.members group bound item).mpr
      ⟨Finset.mem_range.mp inside, member⟩)] at alive
    cases alive
  refine ⟨after.liveLength, after.queuedLength, after.counted, ?_, after.settled, after.justified,
    ?_, after.kept⟩
  · rintro other (impossible | waiting)
    · cases impossible
    · exact after.inside other (Or.inr waiting)
  · intro other other_bound other_queued
    rcases after.processed other other_bound other_queued with busy_other | waiting | done
    · obtain rfl := List.mem_singleton.mp busy_other
      exact Or.inr (Or.inr dead)
    · exact Or.inr (Or.inl waiting)
    · exact Or.inr (Or.inr done)

/-! ## Termination -/

/-- The groups that are waiting or were never queued. -/
def outstanding (state : State) : Nat := state.queue.length + state.queued.count false

/-- Queueing moves a group from the unqueued to the waiting ones. -/
theorem enqueue_outstanding (state : State) (group : Nat) (bound : group < state.queued.length) :
    outstanding (enqueue state group) = outstanding state ∧
      (enqueue state group).queued.length = state.queued.length := by
  unfold enqueue
  split
  · exact ⟨rfl, rfl⟩
  · rename_i unqueued
    rw [List.getD_eq_getElem _ _ bound, Bool.not_eq_true] at unqueued
    have present : false ∈ state.queued := unqueued ▸ List.getElem_mem bound
    have positive : 0 < state.queued.count false := List.count_pos_iff.mpr present
    refine ⟨?_, by simp⟩
    simp only [outstanding, List.length_append, List.length_singleton, List.count_set bound,
      unqueued]
    simp
    omega

/-- Processing a group changes the queue and its marks only by queueing groups. -/
theorem process_preserves (wellFormed : WellFormed incidence items count)
    (property : State → Prop)
    (unmarked : ∀ state alive liveCount, property state →
      property { state with alive := alive, liveCount := liveCount })
    (queued : ∀ state group, group < count → property state → property (enqueue state group))
    (group : Nat) (bound : group < count) (state : State) (here : property state) :
    property (process incidence state group) := by
  have dropped : ∀ (groups : List Nat), (∀ other ∈ groups, other < count) →
      ∀ before, property before → property (groups.foldl (dropMember incidence) before) := by
    intro groups
    induction groups with
    | nil => exact fun _ _ kept => kept
    | cons other rest ih =>
      intro inside before kept
      apply ih fun later member => inside later (List.mem_cons_of_mem _ member)
      have counted := unmarked before before.alive (before.liveCount.modify other (· - 1)) kept
      unfold dropMember
      simp only
      split
      · split
        · exact counted
        · rename_i mate mated
          exact queued _ mate (wellFormed.mates other (inside other List.mem_cons_self) mate
            mated).1 counted
      · exact counted
  have killed : ∀ (members : List Nat), (∀ item ∈ members, item < items) →
      ∀ before, property before → property (members.foldl (kill incidence) before) := by
    intro members
    induction members with
    | nil => exact fun _ _ kept => kept
    | cons item later ih =>
      intro inside before kept
      apply ih fun other member => inside other (List.mem_cons_of_mem _ member)
      unfold kill
      split
      · exact dropped _ (wellFormed.inside item (inside item List.mem_cons_self)) _
          (unmarked before _ before.liveCount kept)
      · exact kept
  exact killed _ (fun item member => ((wellFormed.members group bound item).mp member).1) state here

/-- Processing a group leaves as many groups outstanding. -/
theorem process_outstanding (wellFormed : WellFormed incidence items count) (group : Nat)
    (bound : group < count) (state : State) (length : state.queued.length = count) :
    outstanding (process incidence state group) = outstanding state := by
  refine (process_preserves wellFormed
    (fun other => outstanding other = outstanding state ∧ other.queued.length = count)
    (fun _ _ _ here => here) ?_ group bound state ⟨rfl, length⟩).1
  rintro before other other_bound ⟨same, before_length⟩
  obtain ⟨kept, kept_length⟩ := enqueue_outstanding before other (by omega)
  exact ⟨kept.trans same, kept_length.trans before_length⟩

/-- With a turn for each outstanding group the worklist runs empty, and the
    invariant holds at the end. -/
theorem drain_invariant (wellFormed : WellFormed incidence items count)
    (supported : Supported incidence items set) (turns : Nat) (state : State)
    (enough : outstanding state ≤ turns)
    (here : Invariant incidence items count set [] [] [] state) :
    (drain incidence turns state).queue = [] ∧
      Invariant incidence items count set [] [] [] (drain incidence turns state) := by
  induction turns generalizing state with
  | zero =>
    have empty : state.queue.length = 0 := by
      unfold outstanding at enough
      omega
    exact ⟨List.length_eq_zero_iff.mp empty, here⟩
  | succ turns ih =>
    rw [drain]
    split
    · rename_i empty
      exact ⟨empty, here⟩
    · rename_i group rest front
      have bound := (here.inside group (Or.inr (by rw [front]; exact List.mem_cons_self))).1
      apply ih _ _ (process_invariant wellFormed supported group rest front here)
      rw [process_outstanding wellFormed group bound { state with queue := rest }
        here.queuedLength]
      unfold outstanding at enough ⊢
      rw [front, List.length_cons] at enough
      simp only
      omega

/-! ## The result -/

/-- The marks of the first state are those of the lonely groups. -/
theorem initial_queued (liveCount : List Nat) (group : Nat) (bound : group < liveCount.length) :
    (initial incidence items liveCount).queued.getD group false =
      lonely incidence liveCount group := by
  rw [initial, List.getD_eq_getElem _ _ (by simpa using bound), List.getElem_map,
    List.getElem_range]

/-- A group that is not lonely has a mate with a living member, and the mate of a
    lonely group has none. -/
theorem lonely_spec (liveCount : List Nat) (group : Nat) :
    (lonely incidence liveCount group = false →
      ∃ mate, incidence.mate group = some mate ∧ 0 < liveCount.getD mate 0) ∧
    (lonely incidence liveCount group = true →
      ∀ mate, incidence.mate group = some mate → liveCount.getD mate 0 = 0) := by
  unfold lonely
  cases mated : incidence.mate group with
  | none => simp
  | some mate =>
    simp only [Option.some.injEq, exists_eq_left', forall_eq', beq_iff_eq, beq_eq_false_iff_ne]
    exact ⟨Nat.pos_of_ne_zero, id⟩

/-- The first state keeps the invariant when the counts are right. -/
theorem initial_invariant (liveCount : List Nat) (length : liveCount.length = count)
    (counted : ∀ group < count, liveCount.getD group 0 =
      (living incidence items (List.replicate items true) group).card)
    (inside : ∀ item, set item → item < items) :
    Invariant incidence items count set [] [] [] (initial incidence items liveCount) := by
  subst length
  refine ⟨rfl, by simp [initial], ?_, ?_, ?_, ?_, ?_, ?_⟩
  · intro group bound
    rw [List.count_nil, Nat.add_zero]
    exact counted group bound
  · rintro group (impossible | waiting)
    · cases impossible
    · obtain ⟨bound, alone⟩ := List.mem_filter.mp waiting
      rw [List.mem_range] at bound
      exact ⟨bound, (initial_queued liveCount group bound).trans alone⟩
  · intro group bound unqueued _
    rw [initial_queued liveCount group bound] at unqueued
    exact (lonely_spec liveCount group).1 unqueued
  · intro group bound queued
    rw [initial_queued liveCount group bound] at queued
    exact (lonely_spec liveCount group).2 queued
  · intro group bound queued
    rw [initial_queued liveCount group bound] at queued
    exact Or.inr (Or.inl (List.mem_filter.mpr ⟨List.mem_range.mpr bound, queued⟩))
  · intro item chosen
    have bound := inside item chosen
    rw [initial, List.getD_eq_getElem _ _ (by simpa using bound), List.getElem_replicate]

/-- At first every group is outstanding. -/
theorem initial_outstanding (liveCount : List Nat) :
    outstanding (initial incidence items liveCount) = liveCount.length := by
  have parts := List.length_eq_countP_add_countP (lonely incidence liveCount)
    (l := List.range liveCount.length)
  have unqueued : ((List.range liveCount.length).map (lonely incidence liveCount)).count false =
      (List.range liveCount.length).countP
        (fun group => decide ¬ lonely incidence liveCount group = true) := by
    rw [List.count, List.countP_map]
    apply List.countP_congr
    intro group _
    simp
  rw [List.length_range] at parts
  simp only [outstanding, initial]
  rw [unqueued, ← List.countP_eq_length_filter]
  exact parts.symm

/-- Draining from the first state leaves a supported set of items that contains
    every supported set. -/
theorem drain_initial (wellFormed : WellFormed incidence items count) (liveCount : List Nat)
    (length : liveCount.length = count)
    (counted : ∀ group < count, liveCount.getD group 0 =
      (living incidence items (List.replicate items true) group).card) :
    (∀ set, Supported incidence items set → ∀ item, set item →
      (drain incidence count (initial incidence items liveCount)).alive.getD item false = true) ∧
    Supported incidence items fun item => item < items ∧
      (drain incidence count (initial incidence items liveCount)).alive.getD item false = true := by
  have enough : outstanding (initial incidence items liveCount) ≤ count :=
    Nat.le_of_eq ((initial_outstanding liveCount).trans length)
  have ended : ∀ set, Supported incidence items set →
      (drain incidence count (initial incidence items liveCount)).queue = [] ∧
        Invariant incidence items count set [] [] []
          (drain incidence count (initial incidence items liveCount)) :=
    fun set supported => drain_invariant wellFormed supported count _ enough
      (initial_invariant liveCount length counted fun item chosen => (supported item chosen).1)
  refine ⟨fun set supported item chosen => (ended set supported).2.kept item chosen, ?_⟩
  obtain ⟨empty, last⟩ := ended (fun _ => False) (fun _ impossible => absurd impossible id)
  rintro item ⟨inside, alive⟩
  refine ⟨inside, ?_⟩
  intro group member
  have bound := wellFormed.inside item inside group member
  have present : item ∈ living incidence items
      (drain incidence count (initial incidence items liveCount)).alive group :=
    Finset.mem_filter.mpr ⟨Finset.mem_range.mpr inside, alive, member⟩
  have unqueued : (drain incidence count (initial incidence items liveCount)).queued.getD group
      false = false := by
    by_contra queued
    rcases last.processed group bound (by simpa using queued) with impossible | waiting | dead
    · cases impossible
    · rw [empty] at waiting
      cases waiting
    · rw [dead] at present
      exact absurd present (Finset.notMem_empty item)
  obtain ⟨mate, mated, positive⟩ := last.settled group bound unqueued List.not_mem_nil
  obtain ⟨mate_bound, _⟩ := wellFormed.mates group bound mate mated
  rw [last.counted mate mate_bound, List.count_nil, Nat.add_zero, Finset.card_pos] at positive
  obtain ⟨other, other_present⟩ := positive
  obtain ⟨other_inside, other_alive, other_member⟩ := Finset.mem_filter.mp other_present
  exact ⟨mate, mated, other, ⟨Finset.mem_range.mp other_inside, other_alive⟩, other_member⟩

end CuckatooMiner.Elimination
