import Mathlib
import CuckatooMiner.Foundation.FirstFound

/-!
# Computations under a limit

A computation counts what it does and gives up as soon as a count would exceed its limit.
Beside it stands the same computation without a limit, which always ends. The two are
compared by the count of the unlimited one: within the limit they do the same, and beyond
it the limited one fails with its error and with nothing else.

The relation composes: over sequences, over steps for the items of a list, and over searches
that end with their first result. What a program does at its limit is then known from a count
that mentions no limit at all.
-/

namespace CuckatooMiner.Limits

open FirstFound (firstFound)

universe u v
variable {ε σ τ υ : Type u}

/-- A limited computation beside an unlimited one. Counts never go down. Where the unlimited
    one stays within the limit both do the same; where it exceeds the limit, the limited one
    fails. Nothing is said of computations that start beyond the limit. -/
structure Limited (before : σ → Nat) (after : τ → Nat) (limit : Nat) (error : ε)
    (visit : σ → Except ε τ) (free : σ → τ) : Prop where
  grows : ∀ state, before state ≤ after (free state)
  within : ∀ state, after (free state) ≤ limit → visit state = .ok (free state)
  beyond : ∀ state, before state ≤ limit → limit < after (free state) → visit state = .error error

variable {before : σ → Nat} {between : τ → Nat} {after : υ → Nat} {limit : Nat} {error : ε}

/-- A computation that counts nothing and cannot fail. -/
theorem limited_ok {count : τ → Nat} (free : σ → τ) (same : ∀ state, count (free state) = before state) :
    Limited before count limit error (fun state => .ok (free state)) free := by
  refine ⟨fun state => Nat.le_of_eq (same state).symm, fun _ _ => rfl, fun state low high => ?_⟩
  have counted := same state
  omega

/-- The rule for sequences. -/
theorem limited_bind {visit : σ → Except ε τ} {free : σ → τ} {rest : τ → Except ε υ}
    {restFree : τ → υ} (first : Limited before between limit error visit free)
    (second : Limited between after limit error rest restFree) :
    Limited before after limit error (fun state => visit state >>= rest)
      (fun state => restFree (free state)) := by
  refine ⟨fun state => (first.grows state).trans (second.grows _), fun state few => ?_,
    fun state low many => ?_⟩
  · have early := (second.grows (free state)).trans few
    rw [Outcome.bind_of_ok _ _ _ (first.within state early)]
    exact second.within _ few
  · rcases Nat.lt_or_ge limit (between (free state)) with exceeded | early
    · rw [first.beyond state low exceeded]
      rfl
    · rw [Outcome.bind_of_ok _ _ _ (first.within state early)]
      exact second.beyond _ early many

/-- The rule for a case distinction. -/
theorem limited_if {visit other : σ → Except ε τ} {free otherFree : σ → τ} (test : σ → Prop)
    [DecidablePred test] (here : Limited before between limit error visit free)
    (there : Limited before between limit error other otherFree) :
    Limited before between limit error (fun state => if test state then visit state else other state)
      (fun state => if test state then free state else otherFree state) := by
  refine ⟨fun state => ?_, fun state few => ?_, fun state low many => ?_⟩
  · split
    · exact here.grows state
    · exact there.grows state
  · split at few
    · rename_i passed
      rw [if_pos passed, if_pos passed]
      exact here.within state few
    · rename_i failed
      rw [if_neg failed, if_neg failed]
      exact there.within state few
  · split at many
    · rename_i passed
      rw [if_pos passed]
      exact here.beyond state low many
    · rename_i failed
      rw [if_neg failed]
      exact there.beyond state low many

/-- The rule for counting one more before going on: the only place where a limit is read. -/
theorem limited_count {visit : σ → Except ε τ} {free : σ → τ} (count : σ → σ)
    (counts : ∀ state, before (count state) = before state + 1)
    (rest : Limited before between limit error visit free) :
    Limited before between limit error
      (fun state => if before (count state) > limit then .error error else visit (count state))
      (fun state => free (count state)) := by
  refine ⟨fun state => ?_, fun state few => ?_, fun state _ many => ?_⟩
  · have counted := counts state
    have grown := rest.grows (count state)
    omega
  · have room : ¬ before (count state) > limit := Nat.not_lt.mpr ((rest.grows _).trans few)
    rw [if_neg room]
    exact rest.within _ few
  · split
    · rfl
    · rename_i room
      exact rest.beyond _ (Nat.le_of_not_lt room) many

/-- The rule for steps over the items of a list. -/
theorem limited_fold {ι : Type*} {step : σ → ι → Except ε σ} {free : σ → ι → σ} (items : List ι)
    (each : ∀ item ∈ items, Limited before before limit error (step · item) (free · item)) :
    Limited before before limit error (fun state => items.foldlM step state)
      (fun state => items.foldl free state) := by
  induction items with
  | nil => exact limited_ok id fun _ => rfl
  | cons item rest ih =>
    have later := ih fun other member => each other (List.mem_cons_of_mem _ member)
    exact limited_bind (each item List.mem_cons_self) later

/-! ## Searches -/

section

variable {ι ρ : Type u} {count : σ → Nat}

/-- Enter a search, and leave it where it finds nothing. -/
def entered (enter leave : σ → σ) (visit : σ → Except ε (Option ρ × σ)) (state : σ) :
    Except ε (Option ρ × σ) :=
  match visit (enter state) with
  | .error error => .error error
  | .ok (some result, after) => .ok (some result, after)
  | .ok (none, after) => .ok (none, leave after)

/-- Enter a search without a limit, and leave it where it finds nothing. -/
def enteredFree (enter leave : σ → σ) (visit : σ → Option ρ × σ) (state : σ) : Option ρ × σ :=
  match visit (enter state) with
  | (some result, after) => (some result, after)
  | (none, after) => (none, leave after)

/-- The rule for entering and leaving a search. -/
theorem limited_enter {visit : σ → Except ε (Option ρ × σ)} {free : σ → Option ρ × σ}
    (enter leave : σ → σ) (enters : ∀ state, count (enter state) = count state)
    (left : ∀ state, count (leave state) = count state)
    (inner : Limited count (fun found => count found.2) limit error visit free) :
    Limited count (fun found => count found.2) limit error (entered enter leave visit)
      (enteredFree enter leave free) := by
  refine ⟨fun state => ?_, fun state few => ?_, fun state low many => ?_⟩
  · have grown := inner.grows (enter state)
    rw [enters] at grown
    rw [enteredFree]
    split
    · rename_i found
      rwa [found] at grown
    · rename_i found
      rw [found] at grown
      exact grown.trans (Nat.le_of_eq (left _).symm)
  · have visited := inner.within (enter state)
    rw [enteredFree] at few ⊢
    rw [entered]
    split at few
    · rename_i found
      rw [found] at visited
      rw [visited few]
    · rename_i found
      rw [found] at visited
      rw [visited ((Nat.le_of_eq (left _).symm).trans few)]
  · have exceeded := inner.beyond (enter state) ((Nat.le_of_eq (enters state)).trans low)
    rw [enteredFree] at many
    rw [entered]
    split at many
    · rename_i found
      rw [found] at exceeded
      rw [exceeded many]
    · rename_i found
      rw [found] at exceeded
      rw [exceeded (many.trans_le (Nat.le_of_eq (left _)))]

/-- Visit the items in order until one yields a result, without a limit. -/
def firstFree (visit : ι → σ → Option ρ × σ) : List ι → σ → Option ρ × σ
  | [], state => (none, state)
  | item :: rest, state =>
      match visit item state with
      | (some result, after) => (some result, after)
      | (none, after) => firstFree visit rest after

/-- A search whose visits are limited is limited: it finds what it would find without a limit,
    or fails once the count exceeds the limit. -/
theorem limited_first_found {visit : ι → σ → Except ε (Option ρ × σ)}
    {free : ι → σ → Option ρ × σ} (items : List ι)
    (each : ∀ item ∈ items,
      Limited count (fun found => count found.2) limit error (visit item) (free item)) :
    Limited count (fun found => count found.2) limit error (firstFound visit items)
      (firstFree free items) := by
  induction items with
  | nil => exact limited_ok (fun state => (none, state)) fun _ => rfl
  | cons item rest ih =>
    have here := each item List.mem_cons_self
    have later := ih fun other member => each other (List.mem_cons_of_mem _ member)
    refine ⟨fun state => ?_, fun state few => ?_, fun state low many => ?_⟩
    · have grown := here.grows state
      rw [firstFree]
      split
      · rename_i found
        rwa [found] at grown
      · rename_i after nothing
        rw [nothing] at grown
        exact grown.trans (later.grows after)
    · have visited := here.within state
      rw [firstFree] at few ⊢
      rw [firstFound]
      split at few
      · rename_i found
        rw [found] at visited
        rw [visited few]
      · rename_i after nothing
        rw [nothing] at visited
        rw [visited ((later.grows after).trans few)]
        exact later.within after few
    · have visited := here.within state
      have exceeded := here.beyond state low
      rw [firstFree] at many
      rw [firstFound]
      split at many
      · rename_i found
        rw [found] at exceeded
        rw [exceeded many]
      · rename_i after nothing
        rw [nothing] at visited exceeded
        rcases Nat.lt_or_ge limit (count after) with early | few
        · rw [exceeded early]
        · rw [visited few]
          exact later.beyond after few many

end

/-- What a limited computation comes to, by the count of the unlimited one. -/
theorem limited_eq {visit : σ → Except ε τ} {free : σ → τ}
    (limited : Limited before between limit error visit free) (state : σ) (low : before state ≤ limit) :
    visit state = if between (free state) ≤ limit then .ok (free state) else .error error := by
  split
  · rename_i few
    exact limited.within state few
  · rename_i many
    exact limited.beyond state low (Nat.lt_of_not_le many)

end CuckatooMiner.Limits
