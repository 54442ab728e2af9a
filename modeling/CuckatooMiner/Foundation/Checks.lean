import Mathlib
import CuckatooMiner.Foundation.Outcome

/-!
# Checks in sequence

A check passes or reports an error. Checks in sequence pass exactly if all of them do.

Some steps are known to return one value exactly on a condition and to fail with an error of
a kind otherwise. In sequence they return the last value exactly if all conditions hold.
-/

namespace CuckatooMiner.Checks

open Outcome

universe u v
variable {ε : Type u} {α β : Type v}

/-- A check of each item passes exactly if every item does. -/
theorem each_ok_iff {ι : Type*} (check : ι → Except ε PUnit.{v + 1}) (items : List ι) :
    items.forM check = .ok .unit ↔ ∀ item ∈ items, check item = .ok .unit := by
  induction items with
  | nil => simp [List.forM, pure, Except.pure]
  | cons item rest ih =>
    change (check item >>= fun _ => rest.forM check) = _ ↔ _
    rw [bind_ok_iff]
    simp only [ih, List.mem_cons, forall_eq_or_imp]
    constructor
    · rintro ⟨_, first, others⟩
      exact ⟨first, others⟩
    · rintro ⟨first, others⟩
      exact ⟨.unit, first, others⟩

/-- A failure is a check that does not pass. -/
theorem refuse_unless_ok_iff (wrong : Prop) [Decidable wrong] (error : ε) :
    (if wrong then Except.error error else .ok ()) = .ok () ↔ ¬ wrong := by
  by_cases holds : wrong <;> simp [holds]

/-- A computation returns one value exactly on a condition, and else fails in some way. Which
    failure it is when several are possible is left open. -/
structure Decides (result : Except ε α) (value : α) (condition : Prop) (fails : ε → Prop) : Prop where
  holds : condition → result = .ok value
  refuses : ¬ condition → ∃ error, result = .error error ∧ fails error

variable {condition further : Prop} {fails : ε → Prop} {value : α} {result : Except ε α}

/-- A value that is returned at once. -/
theorem decides_ok (value : α) : Decides (.ok value : Except ε α) value True fails :=
  { holds := fun _ => rfl
    refuses := fun never => absurd trivial never }

/-- The same condition in other words. -/
theorem Decides.reworded (decides : Decides result value condition fails)
    (same : condition ↔ further) : Decides result value further fails :=
  { holds := fun holds => decides.holds (same.mpr holds)
    refuses := fun failed => decides.refuses fun holds => failed (same.mp holds) }

/-- The rule for sequences: the second condition matters only where the first one holds. -/
theorem decides_bind {rest : α → Except ε β} {last : β}
    (starts : Decides result value condition fails)
    (following : condition → Decides (rest value) last further fails) :
    Decides (result >>= rest) last (condition ∧ further) fails := by
  by_cases first : condition
  · have continues := following first
    rw [bind_of_ok _ _ value (starts.holds first)]
    exact continues.reworded ⟨fun second => ⟨first, second⟩, And.right⟩
  · obtain ⟨error, failed, kind⟩ := starts.refuses first
    refine ⟨fun both => absurd both.1 first, fun _ => ⟨error, ?_, kind⟩⟩
    rw [failed]
    rfl

/-- The rule for loops over numbers. Each step may rely on the conditions before it. -/
theorem decides_range (step : β → Nat → Except ε β) (state : Nat → β) (condition : Nat → Prop)
    (count : Nat)
    (each : ∀ i < count, (∀ j < i, condition j) →
      Decides (step (state i) i) (state (i + 1)) (condition i) fails) :
    Decides ((List.range count).foldlM step (state 0)) (state count) (∀ i < count, condition i)
      fails := by
  induction count with
  | zero =>
    rw [List.range_zero, List.foldlM_nil]
    exact (decides_ok _).reworded (by simp)
  | succ count ih =>
    simp only [List.range_succ, List.foldlM_append, List.foldlM_cons, List.foldlM_nil, bind_pure]
    have before := ih fun i inside => each i (Nat.lt_succ_of_lt inside)
    refine (decides_bind before (each count (Nat.lt_succ_self count))).reworded ?_
    constructor
    · rintro ⟨earlier, last⟩ i inside
      rcases Nat.lt_succ_iff_lt_or_eq.mp inside with smaller | rfl
      · exact earlier i smaller
      · exact last
    · intro all
      exact ⟨fun i inside => all i (Nat.lt_succ_of_lt inside), all count (Nat.lt_succ_self count)⟩

/-- The condition decides between the value and the failure. -/
theorem Decides.spec (decides : Decides result value condition fails) :
    (result = .ok value ↔ condition) ∧ ∀ error, result = .error error → fails error := by
  by_cases met : condition
  · have returned := decides.holds met
    simp [returned, met]
  · obtain ⟨error, failed, kind⟩ := decides.refuses met
    refine ⟨?_, fun other same => ?_⟩
    · simp [failed, met]
    · rw [failed] at same
      cases same
      exact kind

end CuckatooMiner.Checks
