import Mathlib

/-!
# Pruning a two-sided matching problem

Every element asks for a mate on each of two sides. A set is stable when it
holds all the mates that its elements ask for. The stable subsets of a set are
closed under unions, so there is a greatest one, its core.

Removing elements that miss a mate on one side never touches the core. This is
what lets rounds over alternating sides, and a worklist that removes elements
one at a time, both arrive at it: whatever stable set of survivors is left is
the core of the set they started from.
-/

namespace CuckatooMiner.Pruning

universe u
variable {α : Type u} (mates : Nat → α → α → Prop)

/-- Every element has a mate inside the set on each side. A mate may be shared, and the relation
    need not be symmetric. -/
def Stable (set : Set α) : Prop :=
  ∀ e ∈ set, ∀ side < 2, ∃ f ∈ set, mates side e f

/-- The union of all stable subsets. -/
def core (set : Set α) : Set α :=
  {e | ∃ part ⊆ set, Stable mates part ∧ e ∈ part}

/-- Keep the elements that have a mate on one side. -/
def trimSide (side : Nat) (set : Set α) : Set α :=
  {e ∈ set | ∃ f ∈ set, mates side e f}

/-- Rounds of trimming, on side zero first and on alternating sides. -/
def trimRounds (set : Set α) : Nat → Set α
  | 0 => set
  | round + 1 => trimSide mates (round % 2) (trimRounds set round)

variable {mates} {set part : Set α}

/-- The core lies inside the set. -/
theorem core_subset : core mates set ⊆ set := by
  rintro e ⟨part, inside, _, member⟩
  exact inside member

/-- The core is stable: a mate inside one stable subset is a mate inside their union. -/
theorem core_stable : Stable mates (core mates set) := by
  rintro e ⟨part, inside, stable, member⟩ side sided
  obtain ⟨f, f_member, mate⟩ := stable e member side sided
  exact ⟨f, ⟨part, inside, stable, f_member⟩, mate⟩

/-- The core contains every stable subset. -/
theorem core_greatest (inside : part ⊆ set) (stable : Stable mates part) :
    part ⊆ core mates set :=
  fun _ member => ⟨part, inside, stable, member⟩

/-- A stable set is its own core. -/
theorem core_of_stable (stable : Stable mates set) : core mates set = set :=
  Set.Subset.antisymm core_subset (core_greatest subset_rfl stable)

/-- A set between a core and its set has that core. -/
theorem core_between {smaller : Set α} (inside : smaller ⊆ set)
    (contains : core mates set ⊆ smaller) : core mates smaller = core mates set := by
  apply Set.Subset.antisymm
  · exact core_greatest (core_subset.trans inside) core_stable
  · exact core_greatest contains core_stable

/-- A stable set between a core and its set is that core. -/
theorem stable_between_is_core {smaller : Set α} (inside : smaller ⊆ set)
    (contains : core mates set ⊆ smaller) (stable : Stable mates smaller) :
    smaller = core mates set := by
  rw [← core_between inside contains, core_of_stable stable]

/-- Trimming removes elements only. -/
theorem trim_side_subset (side : Nat) : trimSide mates side set ⊆ set :=
  fun _ member => member.1

/-- Trimming a side keeps the core. -/
theorem core_subset_trim_side (side : Nat) (sided : side < 2)
    (contains : core mates set ⊆ part) : core mates set ⊆ trimSide mates side part := by
  intro e member
  obtain ⟨f, f_member, mate⟩ := core_stable e member side sided
  exact ⟨contains member, f, contains f_member, mate⟩

/-- Rounds remove elements only. -/
theorem trim_rounds_subset (rounds : Nat) : trimRounds mates set rounds ⊆ set := by
  induction rounds with
  | zero => exact subset_rfl
  | succ round ih => exact (trim_side_subset _).trans ih

/-- No number of rounds loses an element of the core. -/
theorem core_subset_trim_rounds (rounds : Nat) :
    core mates set ⊆ trimRounds mates set rounds := by
  induction rounds with
  | zero => exact core_subset
  | succ round ih => exact core_subset_trim_side _ (Nat.mod_lt _ (by decide)) ih

/-- Trimming for a number of rounds does not change the core. -/
theorem core_trim_rounds (rounds : Nat) :
    core mates (trimRounds mates set rounds) = core mates set :=
  core_between (trim_rounds_subset rounds) (core_subset_trim_rounds rounds)

/-- Where a round removes nothing, the set is already trimmed on its side. -/
theorem trim_side_eq_self (side : Nat) (kept : ∀ e ∈ set, ∃ f ∈ set, mates side e f) :
    trimSide mates side set = set :=
  Set.Subset.antisymm (trim_side_subset side) fun e member => ⟨member, kept e member⟩

/-- More rounds leave less. -/
theorem trim_rounds_antitone (fewer more : Nat) (ordered : fewer ≤ more) :
    trimRounds mates set more ⊆ trimRounds mates set fewer := by
  induction more, ordered using Nat.le_induction with
  | base => exact subset_rfl
  | succ more _ ih => exact (trim_side_subset _).trans ih

/-- Where mates are mutual, a side that was just trimmed is stable. -/
theorem trim_side_again (side : Nat) (symmetric : ∀ e f, mates side e f → mates side f e) :
    trimSide mates side (trimSide mates side set) = trimSide mates side set := by
  apply trim_side_eq_self
  rintro e ⟨member, f, f_member, mate⟩
  exact ⟨f, ⟨f_member, e, member, symmetric e f mate⟩, mate⟩

/-- After a round other than the first that removed nothing, both sides are stable, and no
    later round removes anything. -/
theorem trim_rounds_quiet (symmetric : ∀ side e f, mates side e f → mates side f e) (round more : Nat)
    (later : 1 ≤ round) (quiet : trimRounds mates set (round + 1) = trimRounds mates set round)
    (ordered : round ≤ more) : trimRounds mates set more = trimRounds mates set round := by
  obtain ⟨before, rfl⟩ := Nat.exists_eq_add_of_le' later
  have other : trimSide mates (before % 2) (trimRounds mates set (before + 1)) =
      trimRounds mates set (before + 1) := trim_side_again _ (symmetric _)
  induction more, ordered using Nat.le_induction with
  | base => rfl
  | succ more _ ih =>
    rw [trimRounds, ih]
    have sides : more % 2 = before % 2 ∨ more % 2 = (before + 1) % 2 := by omega
    rcases sides with earlier | same
    · rw [earlier, other]
    · rw [same]
      exact quiet

/-- Rounds leave a stable set as it is. -/
theorem trim_rounds_stable (stable : Stable mates set) (rounds : Nat) :
    trimRounds mates set rounds = set := by
  induction rounds with
  | zero => rfl
  | succ round ih =>
    rw [trimRounds, ih]
    exact trim_side_eq_self _ fun e member => stable e member _ (Nat.mod_lt _ (by decide))

/-- Two rounds or more remove nothing exactly when the set is stable. -/
theorem trim_rounds_eq_self_iff (rounds : Nat) (both : 2 ≤ rounds) :
    trimRounds mates set rounds = set ↔ Stable mates set := by
  constructor
  · intro unchanged e member side sided
    have first : set ⊆ trimRounds mates set 1 :=
      unchanged.symm.subset.trans (trim_rounds_antitone 1 rounds (Nat.le_of_lt both))
    have second : set ⊆ trimRounds mates set 2 :=
      unchanged.symm.subset.trans (trim_rounds_antitone 2 rounds both)
    have sides : side = 0 ∨ side = 1 := by omega
    rcases sides with rfl | rfl
    · exact (first member).2
    · obtain ⟨f, f_member, mate⟩ := (second member).2
      exact ⟨f, trim_rounds_subset 1 f_member, mate⟩
  · intro stable
    exact trim_rounds_stable stable rounds

end CuckatooMiner.Pruning
