import Mathlib
import CuckatooMiner.Foundation.Outcome

/-!
# Searching a list for the first result

A search visits the items of a list in order, threads a state through the visits,
and ends at the first result or the first error. A result comes from the visit
of some item. A search that ends without one has visited every item without a
result, from a state that the earlier visits kept within their invariant.
-/

namespace CuckatooMiner.FirstFound

universe u v
variable {ι : Type u} {ε : Type u} {σ ρ : Type v}

/-- Visit the items in order until one yields a result. -/
def firstFound (visit : ι → σ → Except ε (Option ρ × σ)) :
    List ι → σ → Except ε (Option ρ × σ)
  | [], state => .ok (none, state)
  | item :: rest, state =>
      match visit item state with
      | .error error => .error error
      | .ok (some result, after) => .ok (some result, after)
      | .ok (none, after) => firstFound visit rest after

/-- A result was yielded by the visit of one of the items. -/
theorem first_found_some (visit : ι → σ → Except ε (Option ρ × σ)) (items : List ι)
    (state last : σ) (result : ρ) (found : firstFound visit items state = .ok (some result, last)) :
    ∃ item ∈ items, ∃ before, visit item before = .ok (some result, last) := by
  induction items generalizing state with
  | nil => simp [firstFound] at found
  | cons item rest ih =>
    rw [firstFound] at found
    split at found
    · cases found
    · rename_i visited
      cases found
      exact ⟨item, List.mem_cons_self, state, visited⟩
    · obtain ⟨other, member, before, visited⟩ := ih _ found
      exact ⟨other, List.mem_cons_of_mem _ member, before, visited⟩

/-- A search without a result keeps an invariant that every visit without a result
    keeps, and establishes for every item what such a visit establishes. -/
theorem first_found_none (visit : ι → σ → Except ε (Option ρ × σ)) (invariant : σ → Prop)
    (settled : ι → Prop) (items : List ι)
    (visited : ∀ item ∈ items, ∀ before after, invariant before →
      visit item before = .ok (none, after) → invariant after ∧ settled item)
    (state last : σ) (starts : invariant state)
    (ended : firstFound visit items state = .ok (none, last)) :
    invariant last ∧ ∀ item ∈ items, settled item := by
  induction items generalizing state with
  | nil =>
    cases ended
    exact ⟨starts, by simp⟩
  | cons item rest ih =>
    rw [firstFound] at ended
    split at ended
    · cases ended
    · cases ended
    · rename_i after here
      obtain ⟨kept, done⟩ := visited item List.mem_cons_self state after starts here
      obtain ⟨kept_last, rest_done⟩ :=
        ih (fun other member => visited other (List.mem_cons_of_mem _ member)) after kept ended
      refine ⟨kept_last, ?_⟩
      rintro other (_ | ⟨_, member⟩)
      · exact done
      · exact rest_done other member

/-- A search keeps an invariant that every visit keeps, and its result, if any, has every
    property that visits give their results. -/
theorem first_found_keeps (visit : ι → σ → Except ε (Option ρ × σ)) (invariant : σ → Prop)
    (good : ρ → Prop) (items : List ι)
    (visited : ∀ item ∈ items, ∀ before after result, invariant before →
      visit item before = .ok (result, after) → invariant after ∧ ∀ r ∈ result, good r)
    (state last : σ) (result : Option ρ) (starts : invariant state)
    (ended : firstFound visit items state = .ok (result, last)) :
    invariant last ∧ ∀ r ∈ result, good r := by
  induction items generalizing state with
  | nil =>
    cases ended
    exact ⟨starts, by simp⟩
  | cons item rest ih =>
    rw [firstFound] at ended
    split at ended
    · cases ended
    · rename_i here
      cases ended
      exact visited item List.mem_cons_self state last _ starts here
    · rename_i after here
      exact ih (fun other member => visited other (List.mem_cons_of_mem _ member)) after
        (visited item List.mem_cons_self state after none starts here).1 ended

end CuckatooMiner.FirstFound
