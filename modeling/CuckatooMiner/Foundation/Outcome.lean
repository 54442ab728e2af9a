import Mathlib

/-!
# Fallible steps in sequence

A sequence of fallible steps succeeds exactly when each step does, on the value
its predecessor returned. Peeling a successful sequence apart this way never
unfolds the steps themselves.
-/

namespace CuckatooMiner.Outcome

universe u v
variable {ε : Type u} {α β : Type v}

/-- A bind succeeds exactly when its first step does and the rest succeeds on
    the returned value. -/
theorem bind_ok_iff (first : Except ε α) (rest : α → Except ε β) (result : β) :
    (first >>= rest) = .ok result ↔ ∃ value, first = .ok value ∧ rest value = .ok result := by
  cases first with
  | error error => simp [bind, Except.bind]
  | ok value => simp [bind, Except.bind]

/-- A bind whose first step is known to succeed continues with its value. -/
theorem bind_of_ok (first : Except ε α) (rest : α → Except ε β) (value : α)
    (succeeded : first = .ok value) : (first >>= rest) = rest value := by
  subst succeeded
  rfl

/-- Renaming errors leaves the values. -/
theorem map_error_ok_iff {ε' : Type*} (rename : ε → ε') (result : Except ε α) (value : α) :
    result.mapError rename = .ok value ↔ result = .ok value := by
  cases result with
  | error error => simp [Except.mapError]
  | ok found => simp [Except.mapError]

/-- A computation ends with a value of a kind, or fails with an error of a kind. Which of the
    two it is remains open. -/
structure Gives (result : Except ε α) (value : α → Prop) (fails : ε → Prop) : Prop where
  returned : ∀ found, result = .ok found → value found
  failed : ∀ error, result = .error error → fails error

/-- A value of the kind is one. -/
theorem gives_ok {value : α → Prop} {fails : ε → Prop} {found : α} (holds : value found) :
    Gives (.ok found) value fails := by
  refine ⟨fun _ same => ?_, fun _ same => ?_⟩
  · cases same
    exact holds
  · cases same

/-- An error of the kind is one. -/
theorem gives_error {value : α → Prop} {fails : ε → Prop} {error : ε} (allowed : fails error) :
    Gives (.error error) value fails := by
  refine ⟨fun _ same => ?_, fun _ same => ?_⟩
  · cases same
  · cases same
    exact allowed

/-- The rule for sequences. -/
theorem gives_bind {between : α → Prop} {value : β → Prop} {fails : ε → Prop}
    {first : Except ε α} {rest : α → Except ε β} (starts : Gives first between fails)
    (following : ∀ found, between found → Gives (rest found) value fails) :
    Gives (first >>= rest) value fails := by
  cases first with
  | error error => exact gives_error (starts.failed error rfl)
  | ok found => exact following found (starts.returned found rfl)

/-- Renaming the errors of a computation renames what it may fail with. -/
theorem gives_map_error {ε' : Type*} {value : α → Prop} {fails : ε' → Prop} {rename : ε → ε'}
    {result : Except ε α} (gives : Gives result value fun error => fails (rename error)) :
    Gives (result.mapError rename) value fails := by
  cases result with
  | error error => exact gives_error (gives.failed error rfl)
  | ok found => exact gives_ok (gives.returned found rfl)

/-- A property that every step keeps where it succeeds holds after all of them. -/
theorem fold_keeps {ι : Type*} (step : β → ι → Except ε β) (property : β → Prop) (items : List ι)
    (kept : ∀ item ∈ items, ∀ before after, property before → step before item = .ok after →
      property after) (start last : β) (starts : property start)
    (ended : items.foldlM step start = .ok last) : property last := by
  induction items generalizing start with
  | nil =>
    cases ended
    exact starts
  | cons item rest ih =>
    rw [List.foldlM_cons] at ended
    obtain ⟨next, stepped, rest_ended⟩ := (bind_ok_iff _ _ _).mp ended
    exact ih (fun other member => kept other (List.mem_cons_of_mem _ member)) next
      (kept item List.mem_cons_self start next starts stepped) rest_ended

/-- Steps over successive numbers succeed if each does where its predecessors lead. -/
theorem fold_range_ok (step : β → Nat → Except ε β) (property : Nat → β → Prop) (first count : Nat)
    (each : ∀ i, first ≤ i → i < first + count → ∀ before, property i before →
      ∃ after, step before i = .ok after ∧ property (i + 1) after)
    (start : β) (starts : property first start) :
    ∃ last, (List.range' first count).foldlM step start = .ok last ∧
      property (first + count) last := by
  induction count generalizing first start with
  | zero => exact ⟨start, rfl, starts⟩
  | succ count ih =>
    obtain ⟨next, stepped, holds⟩ := each first (Nat.le_refl _) (by omega) start starts
    obtain ⟨last, ended, final⟩ := ih (first + 1)
      (fun i later before => each i (by omega) (by omega)) next holds
    refine ⟨last, ?_, by rwa [show first + (count + 1) = first + 1 + count by omega]⟩
    rw [List.range'_succ, List.foldlM_cons, bind_of_ok _ _ next stepped]
    exact ended

end CuckatooMiner.Outcome
