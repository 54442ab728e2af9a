import Mathlib
import CuckatooMiner.Foundation.Outcome

/-!
# Tasks that may be stopped

A task runs beside others that may raise a flag. It reads the flag now and then and stops
when it finds it raised. How often the flag has been read so far is the task's clock; the
flag is a function of the clock, chosen from outside.

What is said about a task has three parts, for every way the flag may change: what holds of
its value if it ends with one, which errors it may fail with, and that it stops for a raised
flag only. There is one rule for each construct. A caller may also go on after a part that
has stopped; if the flag is never reset, its next reading stops the caller as well.
-/

namespace CuckatooMiner.Polling

open Outcome (Gives)

universe u v
variable {ε : Type u} {α β : Type v} {ι : Type*}

/-- A task: a flag and a clock go in; the later clock comes out, with a value unless the
    task has stopped. -/
def Task (ε : Type u) (α : Type v) : Type (max u v) :=
  (Nat → Bool) → Nat → Except ε (Option α × Nat)

namespace Task

/-- A computation that does not read the flag. -/
def step (result : Except ε α) : Task ε α :=
  fun _ clock => result.map fun value => (some value, clock)

/-- Read the flag and stop if it is raised. -/
def stopIfRaised : Task ε PUnit :=
  fun flag clock => .ok (if flag clock then none else some PUnit.unit, clock + 1)

/-- Go on with the value of a task, unless it has stopped. -/
def andThen (task : Task ε α) (rest : α → Task ε β) : Task ε β :=
  fun flag clock =>
    match task flag clock with
    | .error error => .error error
    | .ok (none, later) => .ok (none, later)
    | .ok (some value, later) => rest value flag later

instance : Monad (Task ε) where
  pure value := step (.ok value)
  bind := andThen

/-- Go on after a task, also when it has stopped. -/
def resumed (task : Task ε α) : Task ε (Option α) :=
  fun flag clock => (task flag clock).map fun (value, later) => (some value, later)

/-- What a task comes to from the first reading on: nothing if it has stopped. -/
def run (task : Task ε α) (flag : Nat → Bool) : Except ε (Option α) := (task flag 0).map Prod.fst

/-- Perform turns one after the other, reading the flag after each. -/
def turns (turn : α → ι → α) (items : List ι) (start : α) : Task ε α :=
  items.foldlM (fun before item => do
    let after := turn before item
    stopIfRaised
    return after) start

end Task

/-- Going on with the value alone changes nothing. -/
theorem Task.and_then_step (task : Task ε α) :
    task.andThen (fun result => .step (.ok result)) = task := by
  funext flag clock
  rw [andThen]
  cases task flag clock with
  | error error => rfl
  | ok pair =>
    obtain ⟨found, later⟩ := pair
    cases found <;> rfl

/-- A sequence may be grouped either way. -/
theorem Task.and_then_and_then {γ : Type v} (task : Task ε α) (middle : α → Task ε β)
    (rest : β → Task ε γ) :
    (task.andThen middle).andThen rest = task.andThen fun result => (middle result).andThen rest := by
  funext flag clock
  simp only [andThen]
  cases task flag clock with
  | error error => rfl
  | ok pair =>
    obtain ⟨found, later⟩ := pair
    cases found <;> rfl

/-- Going on from a value is going on with it. -/
theorem Task.step_and_then (result : α) (rest : α → Task ε β) :
    (Task.step (.ok result)).andThen rest = rest result := rfl

instance : LawfulMonad (Task ε) :=
  LawfulMonad.mk' (Task ε) Task.and_then_step Task.step_and_then Task.and_then_and_then

/-- A reading that a task makes from the first one on: it ends later. -/
def Task.Reads (task : Task ε α) (flag : Nat → Bool) (clock : Nat) : Prop :=
  ∃ found later, task flag 0 = .ok (found, later) ∧ clock < later

/-- A flag that stays raised. Nothing is said of when it is raised, or whether it is at all. -/
def NeverReset (flag : Nat → Bool) : Prop := ∀ clock, flag clock = true → flag (clock + 1) = true

/-- A task ends with a value of a kind, fails with an error of a kind, or stops at a reading
    that finds the flag raised. -/
structure Ends (flag : Nat → Bool) (task : Task ε α) (value : α → Prop) (fails : ε → Prop) :
    Prop where
  returned : ∀ clock result later, task flag clock = .ok (some result, later) → value result
  failed : ∀ clock error, task flag clock = .error error → fails error
  stopped : ∀ clock later, task flag clock = .ok (none, later) →
    ∃ last, later = last + 1 ∧ flag last = true

/-- A task whose first reading of the flag comes before anything else. -/
def Heeds (flag : Nat → Bool) (task : Task ε α) : Prop :=
  ∀ clock, flag clock = true → task flag clock = .ok (none, clock + 1)

variable {flag : Nat → Bool} {value : α → Prop} {fails : ε → Prop}

/-! ## Sequences -/

/-- A computation that does not read the flag ends as it does. -/
theorem ends_step {result : Except ε α} (gives : Gives result value fails) :
    Ends flag (.step result) value fails := by
  cases result with
  | error error =>
    refine ⟨fun _ _ _ ended => ?_, fun _ _ ended => ?_, fun _ _ ended => ?_⟩
    · cases ended
    · cases ended
      exact gives.failed error rfl
    · cases ended
  | ok found =>
    refine ⟨fun _ _ _ ended => ?_, fun _ _ ended => ?_, fun _ _ ended => ?_⟩
    · cases ended
      exact gives.returned found rfl
    · cases ended
    · cases ended

/-- A value is returned. -/
theorem ends_pure {result : α} (holds : value result) :
    Ends flag (pure result : Task ε α) value fails :=
  ends_step (Outcome.gives_ok holds)

/-- Reading the flag stops only where it is raised. -/
theorem ends_stop_if_raised {value : PUnit → Prop} (holds : value PUnit.unit) :
    Ends flag (.stopIfRaised : Task ε PUnit) value fails := by
  refine ⟨fun clock result later ended => holds, fun clock error ended => ?_,
    fun clock later ended => ?_⟩
  · cases ended
  · rw [Task.stopIfRaised, Except.ok.injEq, Prod.mk.injEq] at ended
    obtain ⟨none_left, rfl⟩ := ended
    refine ⟨clock, rfl, ?_⟩
    by_contra down
    rw [if_neg down] at none_left
    cases none_left

/-- What is asked of a task may be weakened. -/
theorem Ends.weaken {weaker : α → Prop} {more : ε → Prop} {task : Task ε α}
    (ends : Ends flag task value fails) (implies : ∀ result, value result → weaker result)
    (allows : ∀ error, fails error → more error) : Ends flag task weaker more :=
  ⟨fun clock result later ended => implies result (ends.returned clock result later ended),
    fun clock error ended => allows error (ends.failed clock error ended), ends.stopped⟩

/-- How a sequence ends follows from how its first part ends. -/
theorem and_then_of_returned {task : Task ε α} {rest : α → Task ε β} {clock later : Nat}
    {result : α} (ended : task flag clock = .ok (some result, later)) :
    (task >>= rest) flag clock = rest result flag later := by
  change Task.andThen task rest flag clock = _
  rw [Task.andThen, ended]

/-- A sequence stops with its first part. -/
theorem and_then_of_stopped {task : Task ε α} {rest : α → Task ε β} {clock later : Nat}
    (ended : task flag clock = .ok (none, later)) :
    (task >>= rest) flag clock = .ok (none, later) := by
  change Task.andThen task rest flag clock = _
  rw [Task.andThen, ended]

/-- A sequence fails with its first part. -/
theorem and_then_of_failed {task : Task ε α} {rest : α → Task ε β} {clock : Nat} {error : ε}
    (ended : task flag clock = .error error) :
    (task >>= rest) flag clock = .error error := by
  change Task.andThen task rest flag clock = _
  rw [Task.andThen, ended]

/-- A task ends as another does that it goes on as, unless it fails or stops by itself. -/
theorem ends_of_cases {task : Task ε α} (cases_of : ∀ clock,
    (∃ error, task flag clock = .error error ∧ fails error) ∨
    (∃ last, task flag clock = .ok (none, last + 1) ∧ flag last = true) ∨
    ∃ rest later, Ends flag rest value fails ∧ task flag clock = rest flag later) :
    Ends flag task value fails := by
  refine ⟨fun clock result later ended => ?_, fun clock error ended => ?_,
    fun clock later ended => ?_⟩
  · rcases cases_of clock with ⟨_, other, _⟩ | ⟨_, other, _⟩ | ⟨rest, at_clock, ends, same⟩
    · cases other.symm.trans ended
    · cases other.symm.trans ended
    · exact ends.returned at_clock result later (same.symm.trans ended)
  · rcases cases_of clock with ⟨_, other, allowed⟩ | ⟨_, other, _⟩ | ⟨rest, at_clock, ends, same⟩
    · cases other.symm.trans ended
      exact allowed
    · cases other.symm.trans ended
    · exact ends.failed at_clock error (same.symm.trans ended)
  · rcases cases_of clock with ⟨_, other, _⟩ | ⟨last, other, raised⟩ | ⟨rest, at_clock, ends, same⟩
    · cases other.symm.trans ended
    · cases other.symm.trans ended
      exact ⟨last, rfl, raised⟩
    · exact ends.stopped at_clock later (same.symm.trans ended)

/-- The rule for sequences. -/
theorem ends_bind {between : β → Prop} {task : Task ε β} {rest : β → Task ε α}
    (first : Ends flag task between fails)
    (following : ∀ result, between result → Ends flag (rest result) value fails) :
    Ends flag (task >>= rest) value fails := by
  apply ends_of_cases
  intro clock
  cases started : task flag clock with
  | error error =>
    exact Or.inl ⟨error, and_then_of_failed started, first.failed clock error started⟩
  | ok pair =>
    obtain ⟨found, later⟩ := pair
    cases found with
    | none =>
      obtain ⟨last, rfl, raised⟩ := first.stopped clock later started
      exact Or.inr (Or.inl ⟨last, and_then_of_stopped started, raised⟩)
    | some result =>
      have holds := first.returned clock result later started
      exact Or.inr (Or.inr ⟨_, later, following result holds, and_then_of_returned started⟩)

/-- The rule for reading the flag before something else. -/
theorem ends_stop_then {rest : PUnit → Task ε α} (following : Ends flag (rest PUnit.unit) value fails) :
    Ends flag (Task.stopIfRaised >>= rest) value fails := by
  have here : Ends flag (.stopIfRaised : Task ε PUnit) (fun _ => True) fails :=
    ends_stop_if_raised trivial
  exact ends_bind here fun _ _ => following

/-- A task that is run comes to a value, an error, or nothing after a reading that found the flag
    raised. -/
theorem ends_run {task : Task ε α} (ends : Ends flag task value fails) :
    Gives (task.run flag) (fun found => match found with
      | some result => value result
      | none => ∃ clock, task.Reads flag clock ∧ flag clock = true) fails := by
  cases ran : task flag 0 with
  | error error =>
    rw [Task.run, ran]
    exact Outcome.gives_error (ends.failed 0 error ran)
  | ok pair =>
    obtain ⟨found, later⟩ := pair
    rw [Task.run, ran]
    apply Outcome.gives_ok
    cases found with
    | none =>
      obtain ⟨last, rfl, raised⟩ := ends.stopped 0 later ran
      exact ⟨last, ⟨none, last + 1, ran, Nat.lt_succ_self last⟩, raised⟩
    | some result => exact ends.returned 0 result later ran

/-! ## Loops -/

/-- The rule for loops over successive numbers: each turn leads from the property of its
    number to that of the next. -/
theorem ends_range {turn : α → Nat → Task ε α} (property : Nat → α → Prop) (first count : Nat)
    (each : ∀ i, first ≤ i → i < first + count → ∀ before, property i before →
      Ends flag (turn before i) (property (i + 1)) fails) (start : α)
    (starts : property first start) :
    Ends flag ((List.range' first count).foldlM turn start) (property (first + count)) fails := by
  induction count generalizing first start with
  | zero => exact ends_pure starts
  | succ count ih =>
    rw [List.range'_succ, List.foldlM_cons]
    refine ends_bind (each first (Nat.le_refl _) (by omega) start starts) fun next holds => ?_
    rw [show first + (count + 1) = first + 1 + count by omega]
    exact ih (first + 1) (fun i later inside => each i (by omega) (by omega)) next holds

/-- Turns that are not interrupted end where their plain loop does. -/
theorem ends_turns (turn : α → ι → α) (items : List ι) (start : α)
    (holds : value (items.foldl turn start)) :
    Ends flag (Task.turns turn items start : Task ε α) value fails := by
  induction items generalizing start with
  | nil => exact ends_pure holds
  | cons item rest ih =>
    rw [Task.turns, List.foldlM_cons]
    have this_turn : Ends flag (Task.stopIfRaised >>= fun _ => pure (turn start item) : Task ε α)
        (fun after => after = turn start item) fails :=
      ends_stop_then (ends_pure rfl)
    refine ends_bind this_turn ?_
    rintro _ rfl
    exact ih (turn start item) holds

/-- A loop that reads the flag before each turn ends where the plain loop does, with a value or
    with its renamed error. -/
theorem ends_polled {ε' : Type*} (rename : ε' → ε) (turn : α → ι → Except ε' α) (items : List ι)
    (start : α) :
    Ends flag (items.foldlM (fun before item => do
        Task.stopIfRaised
        Task.step ((turn before item).mapError rename)) start)
      (fun last => items.foldlM turn start = .ok last)
      (fun error => ∃ raised, error = rename raised ∧ items.foldlM turn start = .error raised) := by
  induction items generalizing start with
  | nil => exact ends_pure rfl
  | cons item rest ih =>
    rw [List.foldlM_cons, List.foldlM_cons]
    cases turned : turn start item with
    | error raised =>
      have fails : Ends flag (do
          Task.stopIfRaised
          Task.step (.error (rename raised)) : Task ε α) (fun _ => False)
          (fun error => ∃ raised', error = rename raised' ∧
            (Except.error raised >>= fun next => rest.foldlM turn next) = .error raised') :=
        ends_stop_then (ends_step (Outcome.gives_error ⟨raised, rfl, rfl⟩))
      exact ends_bind fails fun _ none => none.elim
    | ok next =>
      have turns : Ends flag (do
          Task.stopIfRaised
          Task.step (.ok next) : Task ε α) (fun after => after = next)
          (fun error => ∃ raised, error = rename raised ∧
            (Except.ok next >>= fun next => rest.foldlM turn next) = .error raised) :=
        ends_stop_then (ends_step (Outcome.gives_ok rfl))
      refine ends_bind turns ?_
      rintro _ rfl
      exact ih _

/-! ## Stopped parts -/

/-- Nothing comes before a reading of the flag that starts a sequence. -/
theorem heeds_stop_then {rest : PUnit → Task ε α} : Heeds flag (Task.stopIfRaised >>= rest) := by
  intro clock raised
  apply and_then_of_stopped
  rw [Task.stopIfRaised, if_pos raised]

/-- A caller may go on after a part that has stopped, if it next heeds the flag and the flag
    is not reset. -/
theorem ends_resumed {between : β → Prop} {task : Task ε β} {rest : Option β → Task ε α}
    (stays : NeverReset flag) (first : Ends flag task between fails)
    (following : ∀ result, between result → Ends flag (rest (some result)) value fails)
    (heeds : Heeds flag (rest none)) : Ends flag (task.resumed >>= rest) value fails := by
  apply ends_of_cases
  intro clock
  cases started : task flag clock with
  | error error =>
    refine Or.inl ⟨error, and_then_of_failed ?_, first.failed clock error started⟩
    rw [Task.resumed, started]
    rfl
  | ok pair =>
    obtain ⟨found, later⟩ := pair
    have continued : (task.resumed >>= rest) flag clock = rest found flag later := by
      apply and_then_of_returned
      rw [Task.resumed, started]
      rfl
    cases found with
    | none =>
      obtain ⟨last, rfl, raised⟩ := first.stopped clock later started
      have still := stays last raised
      exact Or.inr (Or.inl ⟨last + 1, continued.trans (heeds (last + 1) still), still⟩)
    | some result =>
      have holds := first.returned clock result later started
      exact Or.inr (Or.inr ⟨_, later, following result holds, continued⟩)

end CuckatooMiner.Polling
