import Mathlib
import CuckatooMiner.Foundation.Elimination

/-!
# Worklist elimination with checked counts

The worklist again, stopped where a count would drop below zero, and with the groups
that it takes written down in their order.

A member is counted in a group as long as it lives and until its death was accounted
for, so in a well-formed incidence the check never fails. A group is flagged when it
is queued and never again, so no group is taken twice.
-/

namespace CuckatooMiner.Elimination

variable (incidence : Incidence)

/-- A group lost a member, unless its count is already zero. -/
def checkedDrop (state : State) (group : Nat) : Option State :=
  if state.liveCount.getD group 0 = 0 then none else some (dropMember incidence state group)

/-- Kill an item that is still alive, with checked counts. -/
def checkedKill (state : State) (item : Nat) : Option State :=
  if state.alive.getD item false then
    (incidence.groups item).foldlM (checkedDrop incidence)
      { state with alive := state.alive.set item false }
  else some state

/-- Kill the members of a group, with checked counts. -/
def checkedProcess (state : State) (group : Nat) : Option State :=
  (incidence.members group).foldlM (checkedKill incidence) state

/-- Take groups from the front of the worklist, and list them. -/
def checkedDrain : Nat → State → Option (List Nat × State)
  | 0, state => some ([], state)
  | turns + 1, state =>
      match state.queue with
      | [] => some ([], state)
      | group :: rest =>
          (checkedProcess incidence { state with queue := rest } group).bind fun next =>
            (checkedDrain turns next).map fun drained => (group :: drained.1, drained.2)

variable {incidence} {items count : Nat} {set : Nat → Prop} {busy pending owed : List Nat}
  {state : State}

/-! ## No count drops below zero -/

/-- A member whose death is not accounted for is still counted. -/
theorem checked_drop_some (group : Nat) (bound : group < count)
    (here : Invariant incidence items count set busy (group :: pending) [] state) :
    checkedDrop incidence state group = some (dropMember incidence state group) := by
  have counted := here.counted group bound
  rw [List.count_cons_self] at counted
  rw [checkedDrop, if_neg (by omega)]

/-- Accounting for a dead item in all its groups passes every check. -/
theorem checked_drops_some (wellFormed : WellFormed incidence items count)
    (groups : List Nat) (bound : ∀ group ∈ groups, group < count)
    (here : Invariant incidence items count set busy groups [] state) :
    groups.foldlM (checkedDrop incidence) state =
      some (groups.foldl (dropMember incidence) state) := by
  induction groups generalizing state with
  | nil => rfl
  | cons group rest ih =>
    have group_bound := bound group List.mem_cons_self
    rw [List.foldlM_cons, checked_drop_some group group_bound here]
    exact ih (fun other member => bound other (List.mem_cons_of_mem _ member))
      (drop_member_invariant wellFormed group group_bound here)

/-- Killing an item of a queued group passes every check. -/
theorem checked_kill_some (wellFormed : WellFormed incidence items count)
    (supported : Supported incidence items set) (item group : Nat) (inside : item < items)
    (member : group ∈ incidence.groups item) (busy_here : group ∈ busy)
    (here : Invariant incidence items count set busy [] [] state) :
    checkedKill incidence state item = some (kill incidence state item) := by
  unfold checkedKill kill
  split
  · rename_i alive
    exact checked_drops_some wellFormed _ (wellFormed.inside item inside)
      (dead_invariant wellFormed supported item group inside alive member busy_here here)
  · rfl

/-- Processing a group that waited at the front of the worklist passes every check. -/
theorem checked_process_some (wellFormed : WellFormed incidence items count)
    (supported : Supported incidence items set) (group : Nat) (rest : List Nat)
    (front : state.queue = group :: rest)
    (here : Invariant incidence items count set [] [] [] state) :
    checkedProcess incidence { state with queue := rest } group =
      some (process incidence { state with queue := rest } group) := by
  have bound := (here.inside group (Or.inr (by rw [front]; exact List.mem_cons_self))).1
  have killed : ∀ (members : List Nat), (∀ item ∈ members, item ∈ incidence.members group) →
      ∀ before, Invariant incidence items count set [group] [] [] before →
        members.foldlM (checkedKill incidence) before =
          some (members.foldl (kill incidence) before) := by
    intro members
    induction members with
    | nil => exact fun _ _ _ => rfl
    | cons item later ih =>
      intro included before before_here
      obtain ⟨inside, member⟩ :=
        (wellFormed.members group bound item).mp (included item List.mem_cons_self)
      rw [List.foldlM_cons,
        checked_kill_some wellFormed supported item group inside member List.mem_cons_self
          before_here]
      exact ih (fun other present => included other (List.mem_cons_of_mem _ present)) _
        (kill_invariant wellFormed supported item group inside member List.mem_cons_self
          before_here)
  exact killed _ (fun _ member => member) _ (taken_invariant group rest front here)

/-! ## No group is taken twice -/

/-- The groups taken so far and those that wait are all different and all flagged. -/
structure Once (count : Nat) (taken : List Nat) (state : State) : Prop where
  queuedLength : state.queued.length = count
  different : (taken ++ state.queue).Nodup
  flagged : ∀ group ∈ taken ++ state.queue, state.queued.getD group false = true

/-- Queueing a group keeps the groups different. -/
theorem enqueue_once (taken : List Nat) (group : Nat) (bound : group < count)
    (here : Once count taken state) : Once count taken (enqueue state group) := by
  unfold enqueue
  split
  · exact here
  · rename_i fresh
    have marks := fun other => getD_set state.queued group other true
      (by rw [here.queuedLength]; exact bound)
    refine ⟨by simpa using here.queuedLength, ?_, ?_⟩
    · simp only
      rw [← List.append_assoc, List.nodup_append]
      refine ⟨here.different, List.nodup_singleton group, ?_⟩
      intro other member last last_member same
      obtain rfl := List.mem_singleton.mp last_member
      exact fresh (here.flagged last (same ▸ member))
    · intro other member
      simp only [marks]
      split
      · rfl
      · rename_i different
        rw [← List.append_assoc, List.mem_append, List.mem_singleton] at member
        exact here.flagged other (member.resolve_right fun same => different same.symm)

/-- Processing a group keeps the groups different. -/
theorem process_once (wellFormed : WellFormed incidence items count) (taken : List Nat)
    (group : Nat) (bound : group < count) (here : Once count taken state) :
    Once count taken (process incidence state group) :=
  process_preserves wellFormed (Once count taken)
    (fun _ _ _ before => ⟨before.queuedLength, before.different, before.flagged⟩)
    (fun _ other other_bound before => enqueue_once taken other other_bound before)
    group bound state here

/-- Taking a group from the front of the worklist keeps the groups different. -/
theorem take_once (taken : List Nat) (group : Nat) (rest : List Nat)
    (front : state.queue = group :: rest) (here : Once count taken state) :
    Once count (taken ++ [group]) { state with queue := rest } := by
  have regroup : (taken ++ [group]) ++ rest = taken ++ state.queue := by
    rw [front, List.append_assoc, List.singleton_append]
  exact ⟨here.queuedLength, by simpa only [regroup] using here.different,
    by simpa only [regroup] using here.flagged⟩

/-! ## The whole run -/

/-- The checked worklist ends where the unchecked one does, and takes no group twice. -/
theorem checked_drain_some (wellFormed : WellFormed incidence items count)
    (supported : Supported incidence items set) (turns : Nat) (earlier : List Nat)
    (here : Invariant incidence items count set [] [] [] state)
    (once : Once count earlier state) :
    ∃ taken, checkedDrain incidence turns state = some (taken, drain incidence turns state) ∧
      (earlier ++ taken).Nodup := by
  induction turns generalizing state earlier with
  | zero =>
    refine ⟨[], rfl, ?_⟩
    simpa using (List.nodup_append.mp once.different).1
  | succ turns ih =>
    rw [checkedDrain, drain]
    cases front : state.queue with
    | nil =>
      refine ⟨[], rfl, ?_⟩
      simpa using (List.nodup_append.mp once.different).1
    | cons group rest =>
      have bound := (here.inside group (Or.inr (by rw [front]; exact List.mem_cons_self))).1
      obtain ⟨taken, drained, different⟩ := ih (earlier ++ [group])
        (process_invariant wellFormed supported group rest front here)
        (process_once wellFormed _ group bound (take_once earlier group rest front once))
      refine ⟨group :: taken, ?_, ?_⟩
      · simp only [checked_process_some wellFormed supported group rest front here,
          Option.bind_some, drained, Option.map_some]
      · simpa using different

/-- The first state has every flagged group in the worklist, once. -/
theorem initial_once (liveCount : List Nat) (length : liveCount.length = count) :
    Once count [] (initial incidence items liveCount) := by
  subst length
  refine ⟨by simp [initial], ?_, ?_⟩
  · exact List.nodup_range.filter _
  · intro group member
    obtain ⟨bound, alone⟩ := List.mem_filter.mp member
    exact (initial_queued liveCount group (List.mem_range.mp bound)).trans alone

/-- Draining from the first state passes every check, empties the worklist, takes no
    group twice and leaves the greatest supported set of items. -/
theorem checked_drain_initial (wellFormed : WellFormed incidence items count)
    (liveCount : List Nat) (length : liveCount.length = count)
    (counted : ∀ group < count, liveCount.getD group 0 =
      (living incidence items (List.replicate items true) group).card) :
    ∃ taken, checkedDrain incidence count (initial incidence items liveCount) =
        some (taken, drain incidence count (initial incidence items liveCount)) ∧
      (drain incidence count (initial incidence items liveCount)).queue = [] ∧ taken.Nodup ∧
      IsGreatest {chosen : Set Nat | Supported incidence items (· ∈ chosen)} {item | item < items ∧
        (drain incidence count (initial incidence items liveCount)).alive.getD item false =
          true} := by
  have nothing : Supported incidence items fun _ => False := fun _ impossible =>
    absurd impossible id
  have start : Invariant incidence items count (fun _ => False) [] [] []
      (initial incidence items liveCount) :=
    initial_invariant liveCount length counted fun _ impossible => absurd impossible id
  have enough : outstanding (initial incidence items liveCount) ≤ count :=
    Nat.le_of_eq ((initial_outstanding liveCount).trans length)
  obtain ⟨taken, drained, different⟩ := checked_drain_some wellFormed nothing count [] start
    (initial_once liveCount length)
  obtain ⟨keeps, stays⟩ := drain_initial wellFormed liveCount length counted
  refine ⟨taken, drained, (drain_invariant wellFormed nothing count _ enough start).1,
    different, stays, ?_⟩
  intro chosen supported item member
  exact ⟨(supported item member).1, keeps _ supported item member⟩

end CuckatooMiner.Elimination
